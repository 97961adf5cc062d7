import Nucleus.Access
import Nucleus.ThreadState

/-!
# Objects and the tables of the namespace

Four kinds of things can have a name: directories, events, threads, and devices. An object is
named by its kind and its place in the grow-only table of that kind, so its identity never
changes.

The namespace holds, for every directory, the children it maps names to, and, for every object
that has a name, its link: that name and the directory it stands in. An object is linked at most
once; a link is never taken back.

A device is an object that a client supplies. It declares its own valid rights, and it may stand
in front of a directory, in which case paths continue through it as through that directory.
-/

namespace Nucleus

/-- A directory by its place in the table. -/
abbrev DirectoryId : Type := Nat

/-- An event by its place in the table. -/
abbrev EventId : Type := Nat

/-- The kinds of objects. -/
inductive ObjectKind where
  /-- a directory -/
  | directory
  /-- an event -/
  | event
  /-- a thread -/
  | thread
  /-- a client's own object -/
  | device
  deriving DecidableEq, Repr

/-- The tag of a kind. -/
def ObjectKind.name : ObjectKind → String
  | directory => "directory"
  | event => "event"
  | thread => "thread"
  | device => "device"

/-- All kinds. -/
def ObjectKind.all : List ObjectKind := [directory, event, thread, device]

/-- The kind with a given tag. -/
def ObjectKind.ofName? (s : String) : Option ObjectKind := all.find? fun k => k.name = s

/-- An object: its kind and its place in the table of that kind. -/
inductive ObjectId where
  /-- a directory -/
  | directory (index : DirectoryId)
  /-- an event -/
  | event (index : EventId)
  /-- a thread -/
  | thread (index : ThreadId)
  /-- a client's own object -/
  | device (index : Nat)
  deriving DecidableEq

/-- The kind of an object. -/
def ObjectId.kind : ObjectId → ObjectKind
  | directory _ => .directory
  | event _ => .event
  | thread _ => .thread
  | device _ => .device

/-- The name of an object and the directory it stands in. -/
structure Link where
  /-- the name -/
  name : String
  /-- the directory -/
  parent : DirectoryId
  deriving DecidableEq

/-- A directory: the children it maps names to, in the order of their arrival. -/
abbrev Directory : Type := List (String × ObjectId)

namespace Directory

/-- Does one text stand before another, or is it the same? The first place at which they differ
decides, by code points; a text stands before its continuations. -/
def inOrder : List Char → List Char → Bool
  | [], _ => true
  | _ :: _, [] => false
  | a :: as, b :: bs => a.toNat < b.toNat || (a.toNat == b.toNat && inOrder as bs)

/-- The child with a given name. -/
def lookup (d : Directory) (name : String) : Option ObjectId :=
  (d.find? fun e => e.1 == name).map (·.2)

/-- The names of the children, by code points. -/
def names (d : Directory) : List String :=
  (d.map (·.1)).mergeSort fun a b => inOrder a.toList b.toList

end Directory

/-- A client's own object. -/
structure Device where
  /-- the rights that exist on it -/
  valid : AccessMask
  /-- the directory that paths through it continue in -/
  inner : Option DirectoryId := none
  deriving DecidableEq

/-- The tables of the namespace. Directory 0 is the root. -/
structure Namespace where
  /-- the directories -/
  directories : List Directory := [[]]
  /-- the devices -/
  devices : List Device := []
  /-- the links, the latest first -/
  links : List (ObjectId × Link) := []

namespace Namespace

/-- The root directory. -/
def root : ObjectId := .directory 0

/-- The link of an object, if it has a name. -/
def link? (ns : Namespace) (x : ObjectId) : Option Link :=
  (ns.links.find? fun e => e.1 == x).map (·.2)

/-- The name of an object; empty if it has none. -/
def nameOf (ns : Namespace) (x : ObjectId) : String :=
  match ns.link? x with
  | some l => l.name
  | none => ""

/-- The rights that exist on an object. -/
def valid (ns : Namespace) : ObjectId → AccessMask
  | .directory _ => .readWrite
  | .event _ => .readWrite
  | .thread _ => .all
  | .device i =>
    match ns.devices[i]? with
    | some d => d.valid
    | none => .none

/-- The directory that paths through an object continue in, if there is one. -/
def opens (ns : Namespace) : ObjectId → Option DirectoryId
  | .directory d => some d
  | .event _ => none
  | .thread _ => none
  | .device i => (ns.devices[i]?).bind (·.inner)

/-- The child of a directory with a given name. -/
def child (ns : Namespace) (d : DirectoryId) (name : String) : Option ObjectId :=
  (ns.directories[d]?).bind (·.lookup name)

/-- A new, empty directory without a name. -/
def newDirectory (ns : Namespace) : Namespace × ObjectId :=
  ({ ns with directories := ns.directories ++ [[]] }, .directory ns.directories.length)

/-- A new device without a name. -/
def newDevice (ns : Namespace) (d : Device) : Namespace × ObjectId :=
  ({ ns with devices := ns.devices ++ [d] }, .device ns.devices.length)

end Namespace

end Nucleus
