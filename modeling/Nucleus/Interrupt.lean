import Nucleus.Machine
import Nucleus.Rotation

/-!
# Interrupts and deferred calls

A core's dispatcher runs the handler of a line with the interrupted context and reports the
context to resume. Work that an interrupt or a thread wants done at the next convenient moment is
queued as a deferred call; the queue is announced by a core notification, whose built-in handler
runs the queue until it is empty, calls queued meanwhile included. Each deferred call is given the
context that the one before returned, which is how a voluntary yield becomes a switch at interrupt
return.

Deferred calls may queue deferred calls, so the drain takes fuel: the number of deferred calls it
may run, plus one to see that the queue is empty.

The queue of deferred calls has a lock, which is taken with interrupts masked. Whoever adds to the
queue gives it back before the interrupt flag is put back. Whoever counts the queue or takes from it
gives it back afterwards.
-/

namespace Nucleus

variable {G : Guest}

/-- What became of an interrupt. -/
inductive Dispatch where
  /-- resume this context -/
  | resume (context : Context)
  /-- nobody handles the line -/
  | fatal (irq : SystemIrq)
  deriving DecidableEq

namespace Call

/-! ## Picking the next thread -/

/-- Under the lock: save the interrupted context and switch. -/
def rotate (c : CoreId) (context : Context) : Call G Context := do
  match ← read (·.rotate c context) with
  | some (k, next) =>
    change fun _ => k
    return next
  | none =>
    note (.readyEmpty c)
    stop (.panic (.noRunnable c))

/-- Give the processor to the next thread. -/
def yieldThread (c : CoreId) (context : Context) : Call G Context :=
  locked (.queues c) (rotate c context)

/-- Write to the log who is woken by a tick. -/
def noteWoken (c : CoreId) (tick : Nat) : List Sleeper → Call G Unit
  | [] => pure ()
  | s :: rest => do
    note (.tickWakes c tick s.thread)
    noteWoken c tick rest

/-- Under the lock: a core that has counted as many ticks as it can stops. -/
def expectTick (c : CoreId) : Call G Unit := do
  if ← read fun k => (k.queues c).canTick then return () else stop (.panic (.tickOverflow c))

/-- The periodic tick: wake who is due, then rotate. -/
def onTick (c : CoreId) (context : Context) : Call G Context :=
  locked (.queues c) do
    expectTick c
    let due ← read (·.dueNext c)
    change (·.advance c)
    noteWoken c (← read fun k => (k.queues c).ticks) due
    rotate c context

/-! ## Deferred calls -/

/-- Queue a deferred call and announce it. -/
def registerDpc (c : CoreId) (d : Dpc G) : Call G Unit := do
  locked (.dpcs c) (change fun k => k.setDpcs c (k.dpcs c ++ [d]))
  command (·.notify)

/-- How many deferred calls wait? -/
def pendingDpcs (c : CoreId) : Call G Nat :=
  overheld (.dpcs c) (read fun k => (k.dpcs c).length)

/-- Take the oldest deferred call. -/
def popDpc (c : CoreId) : Call G (Option (Dpc G)) :=
  overheld (.dpcs c) do
    match ← read (·.dpcs c) with
    | [] => return none
    | d :: rest =>
      change (·.setDpcs c rest)
      return some d

/-- Run a deferred call. -/
def runDpc (d : Dpc G) (context : Context) : Call G Context :=
  match d with
  | .reschedule c => yieldThread c context
  | .routine home code => interrupt home code context

/-- Run deferred calls until none waits. -/
def drain : Nat → CoreId → Context → Call G Context
  | 0, _, _ => stop .exhausted
  | fuel + 1, c, context => do
    match ← popDpc c with
    | none => return context
    | some d =>
      note .runningDpc
      drain fuel c (← runDpc d context)

/-- Ask for a switch at the next interrupt return. -/
def requestYield (c : CoreId) : Call G Unit := registerDpc c (.reschedule c)

/-! ## Dispatch -/

/-- Run a handler. -/
def runHandler (fuel : Nat) (h : Handler G) (context : Context) : Call G Context :=
  match h with
  | .drain c => drain fuel c context
  | .tick c => onTick c context
  | .routine home code => interrupt home code context

/-- Run the handler of a line on a core. -/
def dispatch (fuel : Nat) (c : CoreId) (irq : SystemIrq) (context : Context) : Call G Dispatch := do
  match ← read (·.handler? c irq) with
  | some h => return .resume (← runHandler fuel h context)
  | none =>
    note (.noHandler irq)
    return .fatal irq

/-- Install a handler; the one it replaces. -/
def registerIrq (c : CoreId) (irq : SystemIrq) (h : Handler G) : Call G (Option (Handler G)) := do
  let old ← read (·.handler? c irq)
  change (·.setHandler c irq h)
  return old

/-! ## The executing core -/

/-- The executing core, which has to be a managed one. -/
def currentCore : Call G CoreId := do
  let c ← look (·.chip.current)
  if ← read (·.manages c) then return c
  else
    note (.unmanagedCore c)
    stop (.panic (.unmanagedCore c))

/-- Dispatch on the executing core. -/
def dispatchHere (fuel : Nat) (irq : SystemIrq) (context : Context) : Call G Dispatch := do
  dispatch fuel (← currentCore) irq context

/-- Trap entry: dispatch, then resume the context that was chosen. It never returns. -/
def handleTrap (fuel : Nat) (irq : SystemIrq) (context : Context) : Call G Empty := do
  match ← dispatchHere fuel irq context with
  | .resume next => stop (.transfer .restoreContext next)
  | .fatal irq =>
    note (.fatalTrap irq)
    stop (.panic (.unhandled irq))

end Call

end Nucleus
