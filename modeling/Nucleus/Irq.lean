/-!
# System interrupt lines

Every core services two lines: the periodic tick and the soft interrupt that a core posts to
itself to have its deferred calls run.
-/

namespace Nucleus

/-- A system interrupt line. -/
inductive SystemIrq where
  /-- the periodic tick -/
  | systemTick
  /-- the core's note to itself that deferred calls wait -/
  | coreNotification
  deriving DecidableEq, Repr

namespace SystemIrq

/-- The number of a line. -/
def toNat : SystemIrq → Nat
  | systemTick => 0
  | coreNotification => 1

/-- The line with a given number. -/
def ofNat? : Nat → Option SystemIrq
  | 0 => some systemTick
  | 1 => some coreNotification
  | _ => none

/-- The identifier of a line. -/
def name : SystemIrq → String
  | systemTick => "SystemTick"
  | coreNotification => "CoreNotification"

/-- What is said of a line that nobody handles. -/
def unhandledMessage (irq : SystemIrq) : String := "unhandled system interrupt " ++ irq.name

theorem ofNat?_toNat (irq : SystemIrq) : ofNat? irq.toNat = some irq := by cases irq <;> rfl

end SystemIrq

end Nucleus
