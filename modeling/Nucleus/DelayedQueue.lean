import Nucleus.ThreadState

/-!
# Sleeping threads

The delayed queue of a core: sleepers in the order in which they wake, sleepers of one wake tick
in the order in which they fell asleep. Insertion keeps the order by going in front of the first
sleeper that wakes strictly later, so the due sleepers are always an initial piece of the queue.
A thread may be queued more than once; taking it out takes its first entry.
-/

namespace Nucleus

/-- A thread and the tick at which it wakes. -/
structure Sleeper where
  /-- who sleeps -/
  thread : ThreadId
  /-- the absolute wake tick -/
  wake : Nat
  deriving DecidableEq

/-- Sleepers in wake order. -/
abbrev DelayedQueue : Type := List Sleeper

namespace DelayedQueue

/-- Queue `s` in front of the first sleeper that wakes strictly later. -/
def insert (s : Sleeper) : DelayedQueue → DelayedQueue
  | [] => [s]
  | x :: q => if s.wake < x.wake then s :: x :: q else x :: insert s q

/-- The head, if it is due at `tick`, and what is left. -/
def popDue (tick : Nat) : DelayedQueue → Option (Sleeper × DelayedQueue)
  | [] => none
  | x :: q => if x.wake ≤ tick then some (x, q) else none

/-- Is the thread queued? -/
def contains (t : ThreadId) (q : DelayedQueue) : Bool := q.any fun s => s.thread == t

/-- Take out the first entry of a thread. -/
def remove (t : ThreadId) (q : DelayedQueue) : DelayedQueue := q.eraseP fun s => s.thread == t

/-- The wake tick of a thread's first entry. -/
def wakeTickOf (t : ThreadId) (q : DelayedQueue) : Option Nat :=
  (q.find? fun s => s.thread == t).map (·.wake)

/-- The threads in wake order. -/
def threads (q : DelayedQueue) : List ThreadId := q.map (·.thread)

/-- The sleepers that `popDue` hands out at `tick`, one after the other. -/
def due (tick : Nat) (q : DelayedQueue) : List Sleeper := q.takeWhile fun s => s.wake ≤ tick

/-- What is left when every due sleeper has been handed out. -/
def later (tick : Nat) (q : DelayedQueue) : DelayedQueue := q.dropWhile fun s => s.wake ≤ tick

/-- Handing out the due sleepers is popping until nothing is due. -/
theorem due_later_of_popDue {tick : Nat} {q r : DelayedQueue} {s : Sleeper}
    (h : popDue tick q = some (s, r)) :
    due tick q = s :: due tick r ∧ later tick q = later tick r := by
  cases q with
  | nil => simp [popDue] at h
  | cons x q =>
    by_cases hx : x.wake ≤ tick
    · simp only [popDue, hx, if_true, Option.some.injEq, Prod.mk.injEq] at h
      obtain ⟨rfl, rfl⟩ := h
      simp [due, later, hx]
    · simp [popDue, hx] at h

/-- Nothing to pop means that nothing is handed out. -/
theorem due_eq_nil_of_popDue {tick : Nat} {q : DelayedQueue} (h : popDue tick q = none) :
    due tick q = [] ∧ later tick q = q := by
  cases q with
  | nil => simp [due, later]
  | cons x q =>
    by_cases hx : x.wake ≤ tick
    · simp [popDue, hx] at h
    · simp [due, later, hx]

end DelayedQueue

end Nucleus
