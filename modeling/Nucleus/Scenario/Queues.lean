import Nucleus.DelayedQueue
import Nucleus.Scenario.Step
import Nucleus.WaitQueue

/-!
# Scripts on a single queue

The two queues of the kernel on their own: a delayed queue of a fixed number of threads, and a
wait queue of a fixed number of entries, entry `i` being that of thread `i`.
-/

namespace Nucleus.Scenario

/-! ## The delayed queue -/

/-- What may be done to a delayed queue. -/
inductive SleepOp where
  /-- queue a thread -/
  | insert (t : Nat) (wake : Nat)
  /-- take the head, if it is due -/
  | popDue (tick : Nat)
  /-- take out a thread -/
  | remove (t : Nat)
  /-- look up a thread -/
  | wakeTickOf (t : Nat)
  /-- not an operation -/
  | malformed (why : Skip)

/-- What an operation on a delayed queue answers. -/
inductive SleepReply where
  /-- nothing -/
  | unit
  /-- a sleeper -/
  | sleeper (s : Sleeper)
  /-- yes or no -/
  | truth (b : Bool)
  /-- a tick -/
  | tick (n : Nat)
  /-- passed over -/
  | skipped (why : Skip)

/-- One operation on a delayed queue of `n` threads. -/
def sleepOp (n : Nat) (q : DelayedQueue) : SleepOp → DelayedQueue × SleepReply
  | .insert t wake =>
    if t < n then (q.insert ⟨t, wake⟩, .unit) else (q, .skipped .noThread)
  | .popDue tick =>
    match q.popDue tick with
    | some (s, rest) => (rest, .sleeper s)
    | none => (q, .unit)
  | .remove t =>
    if t < n then (q.remove t, .truth (q.contains t)) else (q, .skipped .noThread)
  | .wakeTickOf t =>
    if t < n then
      match q.wakeTickOf t with
      | some tick => (q, .tick tick)
      | none => (q, .unit)
    else (q, .skipped .noThread)
  | .malformed why => (q, .skipped why)

/-- A script on a delayed queue: each answer with the queue after it. -/
def sleepScript (n : Nat) (q : DelayedQueue) : List SleepOp → List (SleepReply × DelayedQueue)
  | [] => []
  | op :: ops =>
    let (q', r) := sleepOp n q op
    (r, q') :: sleepScript n q' ops

/-! ## The wait queue -/

/-- What may be done to a wait queue and its entries. -/
inductive WaitOp where
  /-- queue an entry -/
  | push (e : Nat)
  /-- take the oldest entry -/
  | pop
  /-- take out an entry -/
  | remove (e : Nat)
  /-- take every entry -/
  | drain
  /-- hand an entry a wakeup -/
  | signal (e : Nat)
  /-- take the wakeup of an entry -/
  | take (e : Nat)
  /-- whose entry is it? -/
  | thread (e : Nat)
  /-- not an operation -/
  | malformed (why : Skip)

/-- What an operation on a wait queue answers. -/
inductive WaitReply where
  /-- nothing -/
  | unit
  /-- an entry, or a thread -/
  | number (n : Nat)
  /-- entries -/
  | entries (es : List Nat)
  /-- yes or no -/
  | truth (b : Bool)
  /-- passed over -/
  | skipped (why : Skip)

/-- A wait queue and the entries that may be queued in it. -/
structure Waiting where
  /-- the entries -/
  entries : List WaitEntry
  /-- the queue -/
  queue : WaitQueue := []

/-- Entries of `n` threads, none of them queued. -/
def Waiting.new (n : Nat) : Waiting := { entries := (List.range n).map fun t => { thread := t } }

/-- Go on with an entry, if there is one of that number. -/
def Waiting.onEntry (w : Waiting) (e : Nat) (f : WaitEntry → Waiting × WaitReply) :
    Waiting × WaitReply :=
  match w.entries[e]? with
  | some entry => f entry
  | none => (w, .skipped .noEntry)

/-- One operation on a wait queue. -/
def waitOp (w : Waiting) : WaitOp → Waiting × WaitReply
  | .pop =>
    let (e, rest) := w.queue.pop
    ({ w with queue := rest }, match e with | some e => .number e | none => .unit)
  | .drain => ({ w with queue := [] }, .entries w.queue)
  | .malformed why => (w, .skipped why)
  | .push e => w.onEntry e fun _ => ({ w with queue := w.queue.push e }, .unit)
  | .remove e => w.onEntry e fun _ =>
    ({ w with queue := w.queue.remove e }, .truth (w.queue.contains e))
  | .signal e => w.onEntry e fun _ =>
    ({ w with entries := w.entries.modify e WaitEntry.signal }, .unit)
  | .take e => w.onEntry e fun entry =>
    ({ w with entries := w.entries.modify e WaitEntry.take }, .truth entry.signaled)
  | .thread e => w.onEntry e fun entry => (w, .number entry.thread)

/-- A script on a wait queue: each answer with the queue and the entries after it. -/
def waitScript (w : Waiting) : List WaitOp → List (WaitReply × Waiting)
  | [] => []
  | op :: ops =>
    let (w', r) := waitOp w op
    (r, w') :: waitScript w' ops

end Nucleus.Scenario
