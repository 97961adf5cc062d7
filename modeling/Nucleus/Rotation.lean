import Nucleus.Kernel

/-!
# What a scheduler does under its lock

Each function here is the whole effect of one locked stretch of a core's scheduler, as a change of
the kernel state. They are the places where a thread moves from one queue to another, and none
depends on anything that is not kernel state.

The rotation has no cursor: the successor of the running thread is found by looking up its
position among the ready threads. A running thread that is not among them (it fell asleep, it was
killed) hands over to the head of the list.
-/

namespace Nucleus

namespace RunQueues

/-- The thread that runs after the present one: its cyclic successor among the ready threads if it
is one of them, the head otherwise. -/
def successor (q : RunQueues) : Option ThreadId :=
  match q.running.bind q.ready.idxOf? with
  | some i => q.ready[(i + 1) % q.ready.length]?
  | none => q.ready.head?

/-- Does the thread sleep or stand parked here? -/
def isParked (q : RunQueues) (t : ThreadId) : Bool := q.delayed.contains t || q.suspended.contains t

/-- Take a thread out of the queue it sleeps or stands parked in; the delayed queue comes first. -/
def unpark (q : RunQueues) (t : ThreadId) : RunQueues :=
  if q.delayed.contains t then { q with delayed := q.delayed.remove t }
  else { q with suspended := q.suspended.erase t }

/-- Take a thread out of every queue. -/
def expel (q : RunQueues) (t : ThreadId) : RunQueues :=
  { q with
    ready := q.ready.erase t
    delayed := q.delayed.remove t
    suspended := q.suspended.erase t }

/-- The tick after `n`. -/
def nextTick (n : Nat) : Nat := n + 1

/-- May one more tick be counted? The counter is a 64-bit word. -/
def canTick (q : RunQueues) : Bool := decide (q.ticks < 0xffffffffffffffff)

/-- The tick at which a delay of `span` that begins at tick `now` ends: at least one tick later,
at most the greatest tick. -/
def wakeTick (now : Nat) (span slice : TimeSpan) : Nat :=
  let ticks := match span.ticksCeil slice with
    | some n => n
    | none => 0xffffffffffffffff
  min (now + max ticks 1) 0xffffffffffffffff

end RunQueues

variable {G : Guest}

namespace Kernel

/-- Put a thread at the end of the rotation. -/
def makeReady (k : Kernel G) (c : CoreId) (t : ThreadId) : Kernel G :=
  (k.setState t .ready).updateQueues c fun q => { q with ready := q.ready ++ [t] }

/-- Take a thread out of every queue of a core, for good. -/
def terminate (k : Kernel G) (c : CoreId) (t : ThreadId) : Kernel G :=
  (k.updateQueues c (·.expel t)).setState t .terminated

/-- Park a thread without a deadline. -/
def suspend (k : Kernel G) (c : CoreId) (t : ThreadId) : Kernel G :=
  (k.setState t (.wait .infinite)).updateQueues c fun q =>
    { q with ready := q.ready.erase t, suspended := q.suspended ++ [t] }

/-- Put a thread to sleep until a tick. -/
def sleep (k : Kernel G) (c : CoreId) (t : ThreadId) (wake : Nat) : Kernel G :=
  (k.setState t (.wait .timed)).updateQueues c fun q =>
    { q with ready := q.ready.erase t, delayed := q.delayed.insert ⟨t, wake⟩ }

/-- Wake a thread that sleeps or stands parked. -/
def wake (k : Kernel G) (c : CoreId) (t : ThreadId) : Kernel G :=
  (k.updateQueues c (·.unpark t)).makeReady c t

/-- Switch a thread in. -/
def switchTo (k : Kernel G) (c : CoreId) (t : ThreadId) : Kernel G :=
  (k.setState t .running).updateQueues c fun q => { q with running := some t }

/-- Save the interrupted context into the running thread, which is ready from now on unless it is
no longer running. -/
def interruptRunning (k : Kernel G) (c : CoreId) (context : Context) : Kernel G :=
  match (k.queues c).running with
  | none => k
  | some t =>
    let k := k.saveContext t context
    if k.stateOf t = .running then k.setState t .ready else k

/-- Rotate: save the interrupted context and switch to the next thread, whose context is the
one to resume. There is no next thread if nothing is ready. -/
def rotate (k : Kernel G) (c : CoreId) (context : Context) : Option (Kernel G × Context) :=
  (k.queues c).successor.map fun next =>
    let k := (k.interruptRunning c context).switchTo c next
    (k, k.contextOf next)

/-- Tick: count it and put the due sleepers at the end of the rotation, in wake order. -/
def advance (k : Kernel G) (c : CoreId) : Kernel G :=
  let tick := RunQueues.nextTick (k.queues c).ticks
  let due := (k.queues c).delayed.due tick
  let k := k.updateQueues c fun q =>
    { q with ticks := tick, delayed := q.delayed.later tick }
  due.foldl (fun k s => k.makeReady c s.thread) k

/-- The sleepers that the next tick wakes. -/
def dueNext (k : Kernel G) (c : CoreId) : List Sleeper :=
  (k.queues c).delayed.due (RunQueues.nextTick (k.queues c).ticks)

end Kernel

end Nucleus
