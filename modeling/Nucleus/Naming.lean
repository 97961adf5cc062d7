import Nucleus.Event

/-!
# Naming kernel objects

The calls of the namespace as kernel operations. They take no kernel lock and make no chip call;
what they add to the pure functions on `Namespace` is the entry in the log.
-/

namespace Nucleus

variable {G : Guest}

namespace Call

/-- Give an object a name; the accessor carries every right that exists on the object. -/
def createObject (x : ObjectId) (name : String) (parent : Parent) : Call G (Outcome Accessor) := do
  match ← read fun k => k.objects.create x name parent with
  | .error why => return .error why
  | .ok objects =>
    change fun k => { k with objects }
    note (.objectCreated x.kind name)
    return .ok ⟨x, ← read fun k => k.objects.valid x⟩

/-- A new directory without a name. -/
def newDirectory : Call G ObjectId := do
  let (objects, x) ← read (·.objects.newDirectory)
  change fun k => { k with objects }
  return x

/-- A new device without a name. -/
def newDevice (d : Device) : Call G ObjectId := do
  let (objects, x) ← read (·.objects.newDevice d)
  change fun k => { k with objects }
  return x

/-- A new directory with a name. -/
def createDirectory (name : String) (parent : Parent) : Call G (Outcome Accessor) := do
  createObject (← newDirectory) name parent

/-- A new event with a name. -/
def createEvent (name : String) (autoReset : Bool) (parent : Parent) :
    Call G (Outcome Accessor) := do
  createObject (.event (← newEvent autoReset)) name parent

end Call

end Nucleus
