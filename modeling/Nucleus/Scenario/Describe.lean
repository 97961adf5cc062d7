import Nucleus.Kernel
import Nucleus.Notice
import Nucleus.Text.Quoted

/-!
# Objects in words

Descriptions for people who debug: a record is its name and, in braces, its fields; a text stands
between double quotes; a set of rights is the list of its known rights, then the unknown bits as
one hexadecimal number.
-/

namespace Nucleus

namespace Describe

/-- A record: its name, then its fields in braces. -/
def record (name : String) (fields : List (String × String)) : String :=
  name ++ " \x7b " ++ String.intercalate ", " (fields.map fun f => f.1 ++ ": " ++ f.2) ++ " \x7d"

/-- A truth value. -/
def truth (b : Bool) : String := if b then "true" else "false"

/-- A state. -/
def state : ThreadState → String
  | .ready => "Ready"
  | .running => "Running"
  | .wait .timed => "Wait(Timed)"
  | .wait .infinite => "Wait(Infinite)"
  | .terminated => "Terminated"

/-- An owner. -/
def owner : Option CoreId → String
  | none => "None"
  | some c => "Some(" ++ toString c ++ ")"

/-- A thread. -/
def thread {G : Guest} (t : ThreadId) (th : Thread G) : String :=
  record "Thread"
    [("id", toString (ThreadId.number t)),
     ("description", Text.quoted th.description),
     ("state", state th.state),
     ("owner", owner th.owner)]

/-- A wait entry, with its thread in words. -/
def wait (threadText : String) (signaled : Bool) : String :=
  record "ThreadWaitEntry" [("thread", threadText), ("signaled", truth signaled)]

/-- The known rights of a mask, and its unknown bits if there are any. -/
def rights (m : AccessMask) : List String :=
  let known := [(AccessMask.read, "READ"), (AccessMask.write, "WRITE"),
    (AccessMask.execute, "EXECUTE")].filterMap fun (bit, name) =>
      if m.inter bit = bit then some name else none
  let unknown := m.toNat / 8 * 8
  if unknown = 0 then known else known ++ ["0x" ++ Text.hex unknown]

/-- A mask. -/
def mask (m : AccessMask) : String :=
  let names := rights m
  "AccessMask(" ++ (if names.isEmpty then "0x0" else String.intercalate " | " names) ++ ")"

/-- A handle; which object it is of is not told. -/
def handle (granted : AccessMask) : String :=
  record "Accessor" [("object", "PTR"), ("granted", mask granted)]

/-- The link of an object. -/
def link (l : Option Link) : String :=
  record "ObjectHeader"
    [("name", Text.quoted (match l with | some l => l.name | none => "")),
     ("attached", truth l.isSome)]

/-- A deferred call; what it runs is not told. -/
def dpc : String := "Dpc \x7b .. \x7d"

end Describe

end Nucleus
