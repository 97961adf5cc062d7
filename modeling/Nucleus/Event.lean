import Nucleus.Scheduler

/-!
# Events

A binary signal in two flavours. Signalling an *auto-reset* event releases exactly one waiter, the
oldest that can still be woken, and latches if there is none; the latch is consumed by one wait.
Signalling a *manual-reset* event latches and releases every waiter; the latch stays until it is
reset.

A wait has two halves. `enqueueWait` consumes a latched signal, or queues the running thread and
puts it aside; `completeWait` runs when the thread runs again and tells a wakeup from a deadline.
The latch is looked at once without the lock and, since a signal may have come in meanwhile, again
under it. The thread is put aside with the event's lock still held, so a signal always finds its
waiters parked. The lock of an event is taken before the lock of a scheduler, never after.
-/

namespace Nucleus

variable {G : Guest}

namespace Call

/-- Make an event. -/
def newEvent (autoReset : Bool) : Call G EventId := do
  let e ← read (·.events.length)
  change (·.addEvent { autoReset })
  return e

/-- Use a latched signal; an auto-reset event gives it away once. -/
def tryConsume (e : EventId) : Call G Bool := do
  if ← read (·.isRaised e) then
    if ← read (·.isAutoReset e) then change (·.setRaised e false)
    return true
  else return false

/-- Clear the latch. -/
def resetEvent (e : EventId) : Call G Unit := change (·.setRaised e false)

/-- How many threads wait? -/
def waiterCount (e : EventId) : Call G Nat :=
  locked (.waiters e) (read fun k => (k.waitersOf e).length)

/-- Hand the signal to a waiter; can its thread still be woken? -/
def release (w : WaitId) : Call G Bool := do
  change (·.updateWait w WaitEntry.signal)
  match ← read (·.waits[w]?) with
  | none => return false
  | some entry =>
    match ← undelayThread entry.thread with
    | .ok _ => return true
    | .error why =>
      note (.waiterNotWoken entry.thread why)
      return false

/-- Under the lock: hand the signal to the oldest waiter that can still be woken; those before it
leave the queue. Was there one? -/
def releaseOne (e : EventId) : WaitQueue → Call G Bool
  | [] => return false
  | w :: rest => do
    change (·.setWaiters e rest)
    if ← release w then return true else releaseOne e rest

/-- Hand the signal to every waiter. -/
def releaseAll : WaitQueue → Call G Unit
  | [] => return ()
  | w :: rest => do
    discard <| release w
    releaseAll rest

/-- Signal an event. -/
def signalEvent (e : EventId) : Call G Unit :=
  locked (.waiters e) do
    let waiters ← read (·.waitersOf e)
    if ← read (·.isAutoReset e) then
      unless ← releaseOne e waiters do
        change (·.setRaised e true)
    else
      change (·.setRaised e true)
      change (·.setWaiters e [])
      releaseAll waiters

/-- Take an entry out of the queue of an event. -/
def unqueue (e : EventId) (w : WaitId) : Call G Unit :=
  change fun k => k.setWaiters e ((k.waitersOf e).remove w)

@[simp] theorem unqueue_apply (e : EventId) (w : WaitId) (m : Machine G) :
    unqueue e w m = .done { m with
      kernel := m.kernel.setWaiters e ((m.kernel.waitersOf e).remove w) } () := rfl

/-- Under the lock: queue the running thread of a core and put it aside. If it cannot be put aside,
`undo` is done to its entry. -/
def queueRunningUndoing (undo : WaitId → Call G Unit) (e : EventId) (c : CoreId)
    (span : TimeSpan) : Call G (Outcome (Option WaitId)) := do
  match ← runningThread c with
  | none => return .error .invalidOperation
  | some t =>
    let w ← read (·.waits.length)
    change (·.addWait { thread := t })
    change fun k => k.setWaiters e ((k.waitersOf e).push w)
    match ← delay c span with
    | .ok () => return .ok (some w)
    | .error why =>
      undo w
      return .error why

/-- Under the lock: queue the running thread of a core and put it aside. -/
def queueRunning (e : EventId) (c : CoreId) (span : TimeSpan) :
    Call G (Outcome (Option WaitId)) := queueRunningUndoing (unqueue e) e c span

/-- First half of a wait, with a way to undo what was done to queue a thread that cannot be put
aside. -/
def enqueueWaitUndoing (undo : WaitId → Call G Unit) (e : EventId) (span : TimeSpan) :
    Call G (Outcome (Option WaitId)) := do
  if span.isNegative then return .error .argumentOutOfRange
  if ← tryConsume e then return .ok none
  let c ← currentCore
  locked (.waiters e) do
    if ← tryConsume e then return .ok none
    if span.isZero then return .error .timeout
    queueRunningUndoing undo e c span

/-- First half of a wait: no entry if a signal was there to be used. -/
def enqueueWait (e : EventId) (span : TimeSpan) : Call G (Outcome (Option WaitId)) :=
  enqueueWaitUndoing (unqueue e) e span

/-- Second half of a wait. An entry that is still queued has seen its deadline pass. -/
def completeWait (e : EventId) (w : WaitId) : Call G (Outcome Unit) :=
  locked (.waiters e) do
    unqueue e w
    if ← read (·.isSignaled w) then
      change (·.updateWait w WaitEntry.take)
      return .ok ()
    else return .error .timeout

/-- Both halves at once. -/
def waitEvent (e : EventId) (span : TimeSpan) : Call G (Outcome Unit) := do
  match ← enqueueWait e span with
  | .error why => return .error why
  | .ok none => return .ok ()
  | .ok (some w) => completeWait e w

end Call

end Nucleus
