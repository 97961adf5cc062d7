import Nucleus.ThreadState

/-!
# Waiters

A thread that blocks on an object leaves a wait entry: who waits, and whether the object has
handed it a wakeup. Entries live in a grow-only table, so an entry is named by its index for
ever; the object keeps a queue of such names in arrival order.
-/

namespace Nucleus

/-- A wait entry by its place in the kernel's grow-only table. -/
abbrev WaitId : Type := Nat

/-- One blocked thread on one object. -/
structure WaitEntry where
  /-- who waits -/
  thread : ThreadId
  /-- has a wakeup been handed over and not yet been taken? -/
  signaled : Bool := false
  deriving DecidableEq

namespace WaitEntry

/-- Hand over a wakeup. -/
def signal (w : WaitEntry) : WaitEntry := { w with signaled := true }

/-- Take the wakeup, if there is one. -/
def take (w : WaitEntry) : WaitEntry := { w with signaled := false }

end WaitEntry

/-- Waiters, the oldest first. -/
abbrev WaitQueue : Type := List WaitId

namespace WaitQueue

/-- Queue behind everybody. -/
def push (w : WaitId) (q : WaitQueue) : WaitQueue := q ++ [w]

/-- The oldest waiter and the others. -/
def pop : WaitQueue → Option WaitId × WaitQueue
  | [] => (none, [])
  | w :: q => (some w, q)

/-- Leave the queue. -/
def remove (w : WaitId) (q : WaitQueue) : WaitQueue := q.erase w

end WaitQueue

end Nucleus
