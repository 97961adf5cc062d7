import Nucleus.Interrupt

/-!
# Scheduling

The operations of a core's scheduler, and of threads by way of the scheduler that owns them.

A thread is owned by at most one core. Ownership is taken and given up in one atomic access, ahead
of the lock: `startThread` claims, then queues; `killThread` gives up, then takes out of the
queues. In between, others may come in.

Nothing here switches. Operations that put the running thread aside queue a deferred reschedule,
and the running slot goes on naming that thread until the reschedule is run.
-/

namespace Nucleus

variable {G : Guest}

namespace Call

/-! ## Ownership -/

/-- Take ownership for a core, if nobody owns the thread. -/
def claim (t : ThreadId) (c : CoreId) : Call G Bool := do
  if (← read (·.ownerOf t)).isNone then
    change (·.setOwner t (some c))
    return true
  else return false

/-- Give up ownership, if the core has it. -/
def disown (t : ThreadId) (c : CoreId) : Call G Bool := do
  if (← read (·.ownerOf t)) = some c then
    change (·.setOwner t none)
    return true
  else return false

/-- The owner word of a core: its number plus one, zero being left for a thread that nobody owns.
The greatest number has no such word. The number of a managed core always has one. -/
def ownerWord (c : CoreId) : Call G Unit :=
  if c < 0xffffffffffffffff then return () else stop (.panic .coreOverflow)

/-- Take ownership for a core of any number, managed or not. -/
def claimFor (t : ThreadId) (c : CoreId) : Call G Bool := do
  ownerWord c
  claim t c

/-- Give up ownership for a core of any number, managed or not. -/
def disownFor (t : ThreadId) (c : CoreId) : Call G Bool := do
  ownerWord c
  disown t c

/-- The core that owns a thread, if it is a managed one. -/
def owningCore (t : ThreadId) : Call G (Option CoreId) := do
  match ← read (·.ownerOf t) with
  | none => return none
  | some c => return if ← read (·.manages c) then some c else none

/-! ## A core's scheduler -/

/-- Look at the queues of a core, under their lock. Every question about them is asked so: who runs,
who is ready, who sleeps and until when, who is parked, how many ticks have passed. -/
def inspect {α : Type} (c : CoreId) (f : RunQueues → α) : Call G α :=
  locked (.queues c) (read fun k => f (k.queues c))

/-- The thread that is switched in. -/
def runningThread (c : CoreId) : Call G (Option ThreadId) := inspect c (·.running)

/-- Bring a thread into the rotation of a core. Refused if the thread has ended or has an owner. -/
def startThread (c : CoreId) (t : ThreadId) : Call G Bool := do
  if (← read (·.stateOf t)) = .terminated then return false
  pause .unlocked
  if ← claim t c then
    locked (.queues c) (change (·.makeReady c t))
    note (.threadStarted c t (← read (·.descriptionOf t)))
    return true
  else return false

/-- Take a thread out of every queue of the core that owns it, for good. -/
def killThread (c : CoreId) (t : ThreadId) : Call G (Outcome Unit) := do
  if ← disown t c then
    let wasRunning ← locked (.queues c) do
      change (·.terminate c t)
      read fun k => (k.queues c).running == some t
    note (.threadKilled c t)
    if wasRunning then requestYield c
    return .ok ()
  else return .error .invalidOperation

/-- Under the lock: put the running thread aside for a span that is not zero. -/
def park (c : CoreId) (span : TimeSpan) : Call G Unit := do
  match ← read fun k => (k.queues c).running with
  | none =>
    note (.delayWithoutThread c)
    stop (.panic (.delayWithoutThread c))
  | some t =>
    if span.isInfinite then change (·.suspend c t)
    else
      let wake ← read fun k => RunQueues.wakeTick (k.queues c).ticks span k.slice
      note (.sleeps c t wake)
      change (·.sleep c t wake)

/-- Put the running thread of a core aside. A span of zero is a plain yield. -/
def delay (c : CoreId) (span : TimeSpan) : Call G (Outcome Unit) := do
  if span.isNegative then return .error .argumentOutOfRange
  unless span.isZero do
    locked (.queues c) (park c span)
  requestYield c
  return .ok ()

/-- Wake a thread that sleeps or stands parked on a core; was it waiting there? -/
def undelay (c : CoreId) (t : ThreadId) : Call G Bool :=
  locked (.queues c) do
    if ← read fun k => (k.queues c).isParked t then
      change (·.wake c t)
      return true
    else
      note (.notWaiting c t)
      return false

/-- Under the lock: switch in the head of the rotation. -/
def switchFirst (c : CoreId) : Call G (Option Context) := do
  match ← read fun k => (k.queues c).ready.head? with
  | none => return none
  | some t =>
    change (·.switchTo c t)
    return some (← read (·.contextOf t))

/-- Start scheduling on a core: bring in the idle thread, switch in the head of the rotation,
install the tick handler, arm the timer. The context of the first thread. -/
def bootstrap (c : CoreId) : Call G (Outcome Context) := do
  if ← read (·.isStarted c) then return .error .invalidOperation
  change (·.updateCore c fun core => { core with started := true })
  pause .unlocked
  if let some idle ← read (·.idleOf? c) then
    discard <| startThread c idle
  match ← locked (.queues c) (switchFirst c) with
  | none => return .error .invalidOperation
  | some context =>
    discard <| registerIrq c .systemTick (.tick c)
    let slice ← read (·.slice)
    command (·.arm slice)
    note (.bootstrapped c slice)
    return .ok context

/-- Start scheduling and enter the first thread. It never returns. -/
def startScheduling (c : CoreId) : Call G Empty := do
  match ← bootstrap c with
  | .ok context => stop (.transfer .startSchedule context)
  | .error why =>
    note (.cannotStart c why)
    stop (.panic (.startFailed c why))

/-! ## Threads -/

/-- Make a thread without a context. -/
def newThread (entry : ThreadEntry G) (description : String) : Call G ThreadId := do
  let t ← read (·.threads.length)
  change (·.addThread { description, entry })
  return t

/-- Have the chip build the first context of a thread. -/
def buildContext (t : ThreadId) : Call G Unit := do
  let context ← look (·.chip.nextContext)
  command (·.mint)
  change (·.saveContext t context)

/-- Make a thread with a context. -/
def createThread (entry : G.Entry) (description : String) : Call G ThreadId := do
  let t ← newThread (.guest entry) description
  buildContext t
  note (.threadCreated t description)
  return t

/-- Set the argument of a thread that nobody owns and bring it into the rotation of the executing
core. -/
def startThreadHere (t : ThreadId) (argument : UInt64) : Call G Bool := do
  if (← read (·.ownerOf t)).isSome then return false
  pause .unlocked
  change (·.setArgument t argument)
  pause .unlocked
  startThread (← currentCore) t

/-- End a thread with a code. -/
def exitThread (t : ThreadId) (code : ExitCode) : Call G (Outcome Unit) := do
  match ← owningCore t with
  | none => return .error .invalidOperation
  | some c =>
    pause .unlocked
    change (·.setExitCode t code)
    pause .unlocked
    note (.exiting t (← read (·.descriptionOf t)) code)
    killThread c t

/-- Wake a thread by way of the core that owns it. -/
def undelayThread (t : ThreadId) : Call G (Outcome Bool) := do
  match ← owningCore t with
  | none => return .error .invalidOperation
  | some c => return .ok (← undelay c t)

/-- Run the body of a thread. -/
def runEntry (entry : ThreadEntry G) (argument : UInt64) : Call G (Outcome Unit) :=
  match entry with
  | .idle => stop .idle
  | .guest code => enter code argument

/-- The life of a thread: run the body, then end with its outcome. -/
def runThread (t : ThreadId) : Call G (Outcome Unit) := do
  match ← read (·.threads[t]?) with
  | none => return .error .invalidOperation
  | some th =>
    match ← runEntry th.entry th.argument with
    | .ok () => exitThread t 0
    | .error why =>
      note (.faulted t th.description why)
      exitThread t why.code

/-! ## Services of the executing core -/

/-- Put the running thread of the executing core aside. -/
def delayHere (span : TimeSpan) : Call G (Outcome Unit) := do delay (← currentCore) span

/-- End the running thread of the executing core. -/
def exitThreadHere (code : ExitCode) : Call G (Outcome Unit) := do
  match ← runningThread (← currentCore) with
  | none => return .error .invalidOperation
  | some t => exitThread t code

/-- Queue a deferred call on the executing core. -/
def registerDpcHere (make : CoreId → Dpc G) : Call G Unit := do
  let c ← currentCore
  registerDpc c (make c)

/-- Start scheduling on the executing core. It never returns. -/
def startSchedulingHere : Call G Empty := do startScheduling (← currentCore)

end Call

end Nucleus
