import Nucleus.Path

/-!
# Giving and using names

An accessor is an object together with the rights its holder may use on it. Accessors come from
the root, from creating, and from opening; narrowing takes rights away, casting only asks for the
kind of the object.

Creating checks, in this order: the name is well formed, the accessor of the parent carries the
right to write, no sibling has the name, the object has no name yet. Nothing changes unless all
four hold.
-/

namespace Nucleus

/-- An object and the rights of a holder on it. -/
structure Accessor where
  /-- the object -/
  object : ObjectId
  /-- the rights -/
  granted : AccessMask
  deriving DecidableEq

namespace Accessor

/-- The same object with fewer rights. -/
def narrow (a : Accessor) (mask : AccessMask) : Accessor :=
  { a with granted := a.granted.inter mask }

/-- The same accessor, if its object is of the kind asked for. -/
def cast (a : Accessor) (kind : ObjectKind) : Outcome Accessor :=
  if a.object.kind = kind then .ok a else .error .invalidCast

/-- Refuse unless the right was granted. -/
def check (a : Accessor) (required : AccessMask) : Outcome Unit := a.granted.check required

end Accessor

/-- A directory and the rights of a holder on it: what a name is created under. -/
structure Parent where
  /-- the directory -/
  directory : DirectoryId
  /-- the rights -/
  granted : AccessMask
  deriving DecidableEq

namespace Namespace

/-- The root with every right that exists on it. -/
def rootAccessor : Accessor := ⟨root, .readWrite⟩

/-- The root as a parent. -/
def rootParent : Parent := ⟨0, .readWrite⟩

/-- Map a name to an object and link the object, if the name is free and the object has none. -/
def insert (ns : Namespace) (d : DirectoryId) (name : String) (x : ObjectId) : Outcome Namespace :=
  if (ns.child d name).isSome then .error .alreadyExists
  else if (ns.link? x).isSome then .error .invalidOperation
  else .ok
    { ns with
      directories := ns.directories.modify d (· ++ [(name, x)])
      links := (x, ⟨name, d⟩) :: ns.links }

/-- Give an object a name under a parent. -/
def create (ns : Namespace) (x : ObjectId) (name : String) (parent : Parent) : Outcome Namespace :=
  if !Path.isName name then .error .invalidPath
  else match parent.granted.check .write with
    | .error e => .error e
    | .ok () => ns.insert parent.directory name x

/-- Open what a path leads to, if it is of the kind asked for. -/
def openFrom (ns : Namespace) (start : ObjectId) (kind : ObjectKind) (path : String)
    (desired : AccessMask) : Outcome Accessor :=
  match ns.resolve start path desired with
  | .error e => .error e
  | .ok (x, st) => if x.kind = kind then .ok ⟨x, st.granted⟩ else .error .notFound

/-- Open from a parent directory. -/
def openAt (ns : Namespace) (parent : Parent) (kind : ObjectKind) (path : String)
    (desired : AccessMask) : Outcome Accessor :=
  ns.openFrom (.directory parent.directory) kind path desired

/-- Open if it is there: nothing found is an answer, not a failure. -/
def tryOpen (ns : Namespace) (parent : Parent) (kind : ObjectKind) (path : String)
    (desired : AccessMask) : Outcome (Option Accessor) :=
  match ns.openAt parent kind path desired with
  | .ok a => .ok (some a)
  | .error .notFound => .ok none
  | .error e => .error e

end Namespace

end Nucleus
