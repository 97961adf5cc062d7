import Nucleus.Scheduler

/-!
# Booting

A boot brings up the chip, settles the tick period and the number of managed processors, and makes
a core for each of them, with its idle thread. Which threads are idle threads is thereby known:
core `c` idles in thread `c`.
-/

namespace Nucleus

/-- What the chip reports about itself. -/
structure Hardware where
  /-- the number of processors -/
  processors : Nat := 1
  /-- the tick period to use when none is configured -/
  slice : TimeSpan := .ofMillis 10
  /-- why it cannot be brought up, if it cannot -/
  fault : Option KernelError := none

variable {G : Guest}

namespace Call

/-- Make cores, with their idle threads and with the drain installed. -/
def addCores (description : String) : Nat → Call G Unit
  | 0 => return ()
  | n + 1 => do
    let c ← read (·.cores.length)
    let t ← newThread .idle description
    buildContext t
    change fun k =>
      { k with cores := k.cores ++ [{ idle := t, onNotification := some (.drain c) }] }
    addCores description n

/-- Bring up the kernel. -/
def boot (hardware : Hardware) (config : Config) : Call G (Outcome Unit) := do
  command (·.record .bringUp)
  if let some why := hardware.fault then return .error why
  let slice := config.slice.getD hardware.slice
  if slice.isNegative || slice.isZero || slice.isInfinite then return .error .argumentOutOfRange
  let count := min hardware.processors config.maxProcessors
  if count = 0 then return .error .argumentOutOfRange
  change fun k => { k with config, slice }
  addCores config.idleDescription count
  note (.booted count slice)
  return .ok ()

end Call

end Nucleus
