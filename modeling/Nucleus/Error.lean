/-!
# Recoverable failures

A kernel call that cannot do what it was asked returns one of eight causes. A cause has a short
text for people and a stable negative code, which becomes the exit code of a thread whose entry
point fails with it. Broken invariants of the kernel itself are not among them: those stop the
machine (see `Halt`).
-/

namespace Nucleus

/-- Why a kernel call was refused. -/
inductive KernelError where
  /-- malformed path or object name -/
  | invalidPath
  /-- no such entry, or an entry of another type -/
  | notFound
  /-- a sibling of that name exists -/
  | alreadyExists
  /-- the accessor does not carry the right asked for -/
  | unauthorizedAccess
  /-- the accessor's object is of another type -/
  | invalidCast
  /-- the deadline of a wait passed first -/
  | timeout
  /-- nobody owns the thread, or the call is out of sequence -/
  | invalidOperation
  /-- an argument outside its range -/
  | argumentOutOfRange
  deriving DecidableEq, Repr

namespace KernelError

/-- All causes, in the order of their codes. -/
def all : List KernelError :=
  [invalidPath, notFound, alreadyExists, unauthorizedAccess, invalidCast, timeout,
    invalidOperation, argumentOutOfRange]

/-- The stable status code of a cause. -/
def code : KernelError → Int
  | invalidPath => -1
  | notFound => -2
  | alreadyExists => -3
  | unauthorizedAccess => -4
  | invalidCast => -5
  | timeout => -6
  | invalidOperation => -7
  | argumentOutOfRange => -8

/-- The text of a cause. -/
def message : KernelError → String
  | invalidPath => "invalid object path"
  | notFound => "object not found"
  | alreadyExists => "object already exists"
  | unauthorizedAccess => "access denied"
  | invalidCast => "object is not of the requested type"
  | timeout => "wait timed out"
  | invalidOperation => "invalid operation"
  | argumentOutOfRange => "argument out of range"

/-- The identifier of a cause. -/
def name : KernelError → String
  | invalidPath => "InvalidPath"
  | notFound => "NotFound"
  | alreadyExists => "AlreadyExists"
  | unauthorizedAccess => "UnauthorizedAccess"
  | invalidCast => "InvalidCast"
  | timeout => "Timeout"
  | invalidOperation => "InvalidOperation"
  | argumentOutOfRange => "ArgumentOutOfRange"

/-- The cause with a given identifier. -/
def ofName? (s : String) : Option KernelError := all.find? fun e => e.name = s

/-- The cause at a position of `all`, counted around. -/
def ofIndex (n : Nat) : KernelError := (all[n % 8]?).getD argumentOutOfRange

theorem mem_all (e : KernelError) : e ∈ all := by cases e <;> simp [all]

/-- A code tells its cause. -/
theorem code_inj {a b : KernelError} (h : a.code = b.code) : a = b := by
  cases a <;> cases b <;> simp_all [code]

/-- No cause looks like success. -/
theorem code_neg (e : KernelError) : e.code < 0 := by cases e <;> simp [code]

end KernelError

/-- What a call that may be refused returns. -/
abbrev Outcome (α : Type) : Type := Except KernelError α

end Nucleus
