import Nucleus.Chip

/-!
# Critical sections and their guards

A *processor section* masks interrupts; a *spin section* masks them and then takes a lock flag; a
*mutex guard* is a spin section on the flag of a mutex, through which the mutex's value is
reached. Each is a guard that remembers the interrupt flag it found, and giving it back clears the
lock flag first and puts that interrupt flag back last. Guards may be given back in any order.

A `Bench` is one chip with some lock flags and some mutexes, and the guards that were taken on it.
Guards live in a grow-only list; a slot that is empty belongs to a guard that was given back or
never came to be. The type `V` is that of the values of the mutexes, integers if nothing else is
said.
-/

namespace Nucleus

/-- A lock of a bench: a bare flag, or the flag of a mutex. -/
inductive BenchLock where
  /-- a bare lock flag -/
  | flag (index : Nat)
  /-- the flag of a mutex -/
  | mutex (index : Nat)
  deriving DecidableEq

/-- A critical section that is entered. -/
structure Guard where
  /-- the interrupt flag before -/
  saved : Bool
  /-- the lock flag that it set, if it is a spin section -/
  lock : Option BenchLock := none
  deriving DecidableEq

/-- A chip, lock flags, mutexes, and the guards taken so far. -/
structure Bench (V : Type := Int64) where
  /-- the chip and the lock flags that are set -/
  chip : Chip BenchLock := {}
  /-- the number of bare lock flags -/
  flags : Nat
  /-- the values of the mutexes -/
  values : List V
  /-- the guards; an empty slot is no guard (any more) -/
  guards : List (Option Guard) := []

namespace Bench

variable {V : Type}

/-- A bench with clear flags, interrupts delivered, and mutex `i` holding `i`. -/
def new (flags mutexes : Nat) : Bench :=
  { flags, values := (List.range mutexes).map Int64.ofNat }

/-- Every lock of the bench, bare flags first. -/
def locks (b : Bench V) : List BenchLock :=
  (List.range b.flags).map .flag ++ (List.range b.values.length).map .mutex

/-- Is the flag of a lock set? -/
def isHeld (b : Bench V) (l : BenchLock) : Bool := b.chip.held.contains l

/-- Append a slot to the table of guards. -/
def keep (b : Bench V) (g : Option Guard) : Bench V := { b with guards := b.guards ++ [g] }

/-- The guard in a slot. -/
def guard? (b : Bench V) (g : Nat) : Option Guard := (b.guards[g]?).getD none

/-- Enter a processor section: mask. -/
def enter (b : Bench V) : Bench V :=
  ({ b with chip := b.chip.mask }).keep (some ⟨b.chip.interrupts, none⟩)

/-- Enter a spin section on a lock whose flag is clear: mask, then take. -/
def take (b : Bench V) (l : BenchLock) : Bench V :=
  ({ b with chip := b.chip.mask.acquire l }).keep (some ⟨b.chip.interrupts, some l⟩)

/-- Try a lock: with its flag clear this is `take`; otherwise the interrupt flag is put back and
the slot stays empty. -/
def tryTake (b : Bench V) (l : BenchLock) : Bench V :=
  if b.isHeld l then ({ b with chip := b.chip.mask.restore b.chip.interrupts }).keep none
  else b.take l

/-- Give a guard back: the lock flag is cleared first, the interrupt flag that was found at the
start is put back last. -/
def leave (b : Bench V) (slot : Nat) (g : Guard) : Bench V :=
  let chip := match g.lock with
    | none => b.chip
    | some l => b.chip.release l
  { b with chip := chip.restore g.saved, guards := b.guards.set slot none }

/-- Change the value of a mutex. -/
def update (b : Bench V) (m : Nat) (f : V → V) : Bench V := { b with values := b.values.modify m f }

/-- Set the interrupt flag by hand. Masking is a chip call like any other; unmasking leaves no
trace in the journal. -/
def setInterrupts (b : Bench V) (on : Bool) : Bench V :=
  { b with chip := if on then { b.chip with interrupts := true } else b.chip.mask }

/-! ## Scripts -/

/-- What may be done on a bench. -/
inductive Op (V : Type := Int64) where
  /-- enter a processor section -/
  | enter
  /-- enter a spin section -/
  | spin (lock : Nat)
  /-- try to enter a spin section -/
  | trySpin (lock : Nat)
  /-- lock a mutex -/
  | mutex (index : Nat)
  /-- try to lock a mutex -/
  | tryMutex (index : Nat)
  /-- change the value behind a mutex guard -/
  | update (slot : Nat) (f : V → V)
  /-- give a guard back -/
  | leave (slot : Nat)
  /-- set the interrupt flag by hand -/
  | setInterrupts (on : Bool)
  /-- change the value of a fresh mutex that nobody shares, then lock and read it -/
  | fresh (v : V) (f : V → V)

/-- Add to the integer behind a mutex guard, around the 64-bit range. -/
def Op.add (slot : Nat) (v : Int64) : Op := .update slot (· + v)

/-- Flip the lowest bit of the integer in a fresh mutex, then lock and read it. -/
def Op.owned (v : Int64) : Op := .fresh v (· ^^^ 1)

/-- Why an operation was not carried out. -/
inductive Refusal where
  /-- the lock's flag is set and nobody is left to clear it -/
  | wouldSpin
  /-- the slot holds no mutex guard -/
  | notMutexGuard
  /-- the slot holds no guard -/
  | noGuard
  /-- no bare flag of that number -/
  | noLock
  /-- no mutex of that number -/
  | noMutex
  deriving DecidableEq

/-- The text of a refusal. -/
def Refusal.message : Refusal → String
  | wouldSpin => "would spin forever"
  | notMutexGuard => "not a mutex guard"
  | noGuard => "no guard"
  | noLock => "no lock"
  | noMutex => "no mutex"

/-- What an operation answers. -/
inductive Reply (V : Type := Int64) where
  /-- nothing to say -/
  | unit
  /-- yes or no -/
  | truth (b : Bool)
  /-- a mutex's value -/
  | value (v : V)
  /-- not carried out -/
  | refused (why : Refusal)
  deriving DecidableEq

/-- Lock `l`, which must be free; a lock that is held leaves an empty slot. -/
def lockOrRefuse (b : Bench V) (l : BenchLock) : Bench V × Reply V :=
  if b.isHeld l then (b.keep none, .refused .wouldSpin) else (b.take l, .unit)

/-- Carry out one operation. -/
def perform (b : Bench V) : Op V → Bench V × Reply V
  | .enter => (b.enter, .truth b.chip.interrupts)
  | .spin i =>
    if i < b.flags then b.lockOrRefuse (.flag i) else (b, .refused .noLock)
  | .trySpin i =>
    if i < b.flags then (b.tryTake (.flag i), .truth (!b.isHeld (.flag i)))
    else (b, .refused .noLock)
  | .mutex i =>
    if i < b.values.length then b.lockOrRefuse (.mutex i) else (b, .refused .noMutex)
  | .tryMutex i =>
    if i < b.values.length then (b.tryTake (.mutex i), .truth (!b.isHeld (.mutex i)))
    else (b, .refused .noMutex)
  | .update slot f =>
    match (b.guard? slot).bind (·.lock) with
    | some (.mutex m) => (b.update m f, ((b.values[m]?).map f).elim .unit .value)
    | _ => (b, .refused .notMutexGuard)
  | .leave slot =>
    match b.guard? slot with
    | some g => (b.leave slot g, .unit)
    | none => (b, .refused .noGuard)
  | .setInterrupts on => (b.setInterrupts on, .truth b.chip.interrupts)
  | .fresh v f =>
    ({ b with chip := b.chip.mask.restore b.chip.interrupts }, .value (f v))

/-! ## Reports -/

/-- One digit a lock: is its flag set? -/
def heldText (locks held : List BenchLock) : String :=
  String.ofList (locks.map fun l => if held.contains l then '1' else '0')

/-- A flag as a digit. -/
def digit (b : Bool) : String := if b then "1" else "0"

/-- The maskings and restorings of a stretch of the journal, each with the lock flags at that
moment; `held` are the flags that were set at the start of the stretch. -/
def traceText (locks : List BenchLock) : List BenchLock → List (Act BenchLock) → List String
  | _, [] => []
  | held, .mask was :: acts =>
    ("D" ++ digit was ++ ":" ++ heldText locks held) :: traceText locks held acts
  | held, .restore saved :: acts =>
    ("R" ++ digit saved ++ ":" ++ heldText locks held) :: traceText locks held acts
  | held, .acquire l :: acts => traceText locks (l :: held) acts
  | held, .release l :: acts => traceText locks (held.erase l) acts
  | held, _ :: acts => traceText locks held acts

/-- What an observer sees of one operation. -/
structure Report (V : Type := Int64) where
  /-- the answer -/
  reply : Reply V
  /-- the interrupt flag afterwards -/
  interrupts : Bool
  /-- how often the interrupt flag has been put back so far -/
  restores : Nat
  /-- the lock flags afterwards -/
  held : String
  /-- the chip calls of this operation -/
  trace : List String

/-- Carry out one operation and report. -/
def observe (b : Bench V) (op : Op V) : Bench V × Report V :=
  let (after, reply) := b.perform op
  let fresh := after.chip.acts.drop b.chip.journal.length
  (after,
    { reply
      interrupts := after.chip.interrupts
      restores := after.chip.restores
      held := heldText b.locks after.chip.held
      trace := traceText b.locks b.chip.held fresh })

/-- Carry out a script. -/
def run (b : Bench V) : List (Op V) → List (Report V)
  | [] => []
  | op :: ops =>
    let (after, report) := b.observe op
    report :: after.run ops

end Bench

end Nucleus
