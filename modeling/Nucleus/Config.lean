import Nucleus.Time

/-!
# Boot configuration

What the integrator may choose; what is left open falls back to what the chip reports.
-/

namespace Nucleus

/-- The knobs of a boot. -/
structure Config where
  /-- the tick period; absent, the chip's own -/
  slice : Option TimeSpan := none
  /-- processors beyond this count are left alone -/
  maxProcessors : Nat := 8
  /-- the description of every idle thread -/
  idleDescription : String := "idle"

/-- Choose the tick period. -/
def Config.withSlice (c : Config) (s : TimeSpan) : Config := { c with slice := some s }

/-- Bound the number of managed processors. -/
def Config.withMaxProcessors (c : Config) (n : Nat) : Config := { c with maxProcessors := n }

end Nucleus
