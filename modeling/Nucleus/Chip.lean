import Nucleus.Time
import Nucleus.ThreadState

/-!
# The chip and the lock flags

What the kernel core asks of the hardware, as a plain record: the interrupt flag of the executing
processor, the counter of built contexts, the notifications posted, the armed timer, the number of
the executing processor. The spin-lock flags that are set stand beside it, because both are
changed in one discipline: interrupts are masked before a flag is taken and restored after it is
given back.

Every call is written to a journal, the latest on top. Taking and giving back a flag is written
there as well, so that a journal shows which flags were set at each masking and at each restoring.

The type `L` names the locks.
-/

namespace Nucleus

/-- One entry of the journal. -/
inductive Act (L : Type) where
  /-- the chip was brought up -/
  | bringUp
  /-- a first context was built -/
  | context (c : Context)
  /-- interrupts were masked; `was` is the flag before -/
  | mask (was : Bool)
  /-- the interrupt flag was put back to `saved` -/
  | restore (saved : Bool)
  /-- the periodic tick was armed -/
  | timer (slice : TimeSpan)
  /-- a core notification was posted -/
  | notify
  /-- a lock flag was set -/
  | acquire (lock : L)
  /-- a lock flag was cleared -/
  | release (lock : L)
  deriving DecidableEq

/-- The hardware as far as the kernel core can see it. -/
structure Chip (L : Type) where
  /-- are interrupts delivered? -/
  interrupts : Bool := true
  /-- the executing processor -/
  current : CoreId := 0
  /-- the number of contexts built so far -/
  minted : Nat := 0
  /-- the number of core notifications posted so far -/
  notifications : Nat := 0
  /-- the tick period armed last -/
  timer : Option TimeSpan := none
  /-- the lock flags that are set, the latest first -/
  held : List L := []
  /-- what happened, the latest first -/
  journal : List (Act L) := []

namespace Chip

variable {L : Type}

/-- Write to the journal. -/
def record (c : Chip L) (a : Act L) : Chip L := { c with journal := a :: c.journal }

/-- Mask interrupts. -/
def mask (c : Chip L) : Chip L := { c.record (.mask c.interrupts) with interrupts := false }

/-- Put the interrupt flag back. -/
def restore (c : Chip L) (saved : Bool) : Chip L :=
  { c.record (.restore saved) with interrupts := saved }

/-- Post a core notification. -/
def notify (c : Chip L) : Chip L :=
  { c.record .notify with notifications := c.notifications + 1 }

/-- Arm the periodic tick. -/
def arm (c : Chip L) (slice : TimeSpan) : Chip L :=
  { c.record (.timer slice) with timer := some slice }

/-- The context that is built next: contexts are counted from one. -/
def nextContext (c : Chip L) : Context := UInt64.ofNat (c.minted + 1)

/-- Build a first context. -/
def mint (c : Chip L) : Chip L :=
  { c.record (.context c.nextContext) with minted := c.minted + 1 }

/-- Set a lock flag. -/
def acquire (c : Chip L) (l : L) : Chip L :=
  { c.record (.acquire l) with held := l :: c.held }

/-- Clear a lock flag. -/
def release [BEq L] (c : Chip L) (l : L) : Chip L :=
  { c.record (.release l) with held := c.held.erase l }

/-- Forget the journal. -/
def clearJournal (c : Chip L) : Chip L := { c with journal := [] }

/-- What happened, in order. -/
def acts (c : Chip L) : List (Act L) := c.journal.reverse

/-- The number of times the interrupt flag was put back, by the journal. -/
def restores (c : Chip L) : Nat :=
  c.journal.countP fun a => match a with
    | .restore _ => true
    | _ => false

/-! ## What the calls do to the interrupt flag and to the lock flags -/

@[simp] theorem interrupts_mask (c : Chip L) : c.mask.interrupts = false := rfl

@[simp] theorem held_mask (c : Chip L) : c.mask.held = c.held := rfl

@[simp] theorem interrupts_restore (c : Chip L) (saved : Bool) :
    (c.restore saved).interrupts = saved := rfl

@[simp] theorem held_restore (c : Chip L) (saved : Bool) : (c.restore saved).held = c.held := rfl

@[simp] theorem interrupts_acquire (c : Chip L) (l : L) :
    (c.acquire l).interrupts = c.interrupts := rfl

@[simp] theorem held_acquire (c : Chip L) (l : L) : (c.acquire l).held = l :: c.held := rfl

@[simp] theorem interrupts_release [BEq L] (c : Chip L) (l : L) :
    (c.release l).interrupts = c.interrupts := rfl

@[simp] theorem held_release [BEq L] (c : Chip L) (l : L) :
    (c.release l).held = c.held.erase l := rfl

@[simp] theorem interrupts_notify (c : Chip L) : c.notify.interrupts = c.interrupts := rfl

@[simp] theorem held_notify (c : Chip L) : c.notify.held = c.held := rfl

/-- A lock that is taken and given back leaves the flags as they were. -/
theorem held_release_acquire [BEq L] [LawfulBEq L] (c : Chip L) (l : L) :
    ((c.acquire l).release l).held = c.held := by
  simp

end Chip

end Nucleus
