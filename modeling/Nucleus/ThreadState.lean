/-!
# The words of a thread

How threads, cores, contexts and exit codes are named, and the states of a thread.
-/

namespace Nucleus

/-- A thread by its place in the kernel's grow-only table. -/
abbrev ThreadId : Type := Nat

/-- A core by its number. -/
abbrev CoreId : Type := Nat

/-- A saved machine context, one opaque word. -/
abbrev Context : Type := UInt64

/-- How a thread ended, a signed 32-bit number. -/
abbrev ExitCode : Type := Int

/-- The exit code that a number stands for: its low 32 bits. -/
def ExitCode.ofInt (n : Int) : ExitCode := n.bmod 0x100000000

/-- Why a thread is not runnable. -/
inductive WaitKind where
  /-- until a wake tick -/
  | timed
  /-- until somebody wakes it -/
  | infinite
  deriving DecidableEq, Repr

/-- What a thread is doing. -/
inductive ThreadState where
  /-- runnable -/
  | ready
  /-- switched in -/
  | running
  /-- out of the rotation for a while -/
  | wait (kind : WaitKind)
  /-- done for good -/
  | terminated
  deriving DecidableEq, Repr

namespace ThreadState

/-- The stored encoding of a state. -/
def toNat : ThreadState → Nat
  | ready => 0
  | running => 1
  | wait .timed => 2
  | wait .infinite => 3
  | terminated => 4

/-- The state with a given encoding. -/
def ofNat? : Nat → Option ThreadState
  | 0 => some ready
  | 1 => some running
  | 2 => some (wait .timed)
  | 3 => some (wait .infinite)
  | 4 => some terminated
  | _ => none

/-- Is the thread out of the rotation for a while? -/
def isWaiting : ThreadState → Bool
  | wait _ => true
  | _ => false

/-- The identifier of a state. -/
def name : ThreadState → String
  | ready => "Ready"
  | running => "Running"
  | wait .timed => "WaitTimed"
  | wait .infinite => "WaitInfinite"
  | terminated => "Terminated"

theorem ofNat?_toNat (s : ThreadState) : ofNat? s.toNat = some s := by
  cases s with
  | wait k => cases k <;> rfl
  | _ => rfl

end ThreadState

end Nucleus
