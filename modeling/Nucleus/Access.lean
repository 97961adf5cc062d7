import Nucleus.Error

/-!
# Rights

A mask is a 32-bit word. Three bits are known rights; the others have no meaning but travel with
the mask. The complement of a mask keeps known bits only.

`AccessState` is the accumulator of a path walk: every visited object declares which rights are
valid on it, and `step` folds that declaration in. A step grants the rights that were wanted or
granted before it and are valid on the object, and no others. Of the rights it does not grant, those
that were only wanted stay wanted, and a later object may grant them. Those that the object before
had granted are in neither set any more, and no later object grants them.
-/

namespace Nucleus

/-- A set of rights. -/
structure AccessMask where
  /-- one bit a right; the low three are known -/
  bits : BitVec 32
  deriving DecidableEq

namespace AccessMask

/-- The mask with the low 32 bits of `n`. -/
def ofNat (n : Nat) : AccessMask := ⟨BitVec.ofNat 32 n⟩

/-- The mask as a number. -/
def toNat (m : AccessMask) : Nat := m.bits.toNat

/-- No right. -/
def none : AccessMask := ofNat 0
/-- Read state, wait, list. -/
def read : AccessMask := ofNat 1
/-- Change state, signal, insert. -/
def write : AccessMask := ofNat 2
/-- Execute. -/
def execute : AccessMask := ofNat 4
/-- Every known right. -/
def all : AccessMask := ofNat 7
/-- Read and write. -/
def readWrite : AccessMask := ofNat 3

/-- The rights in both. -/
def inter (a b : AccessMask) : AccessMask := ⟨a.bits &&& b.bits⟩

/-- The rights in either. -/
def union (a b : AccessMask) : AccessMask := ⟨a.bits ||| b.bits⟩

/-- The known rights that are missing. -/
def compl (a : AccessMask) : AccessMask := ⟨~~~a.bits &&& all.bits⟩

/-- Every bit of `a` is in `b`. -/
def Subset (a b : AccessMask) : Prop := a.inter b = a

instance (a b : AccessMask) : Decidable (Subset a b) := inferInstanceAs (Decidable (_ = _))

/-- Refuse unless every bit of `required` is there. -/
def check (m required : AccessMask) : Outcome Unit :=
  if m.inter required = required then .ok () else .error .unauthorizedAccess

theorem check_eq_ok_iff {m required : AccessMask} :
    m.check required = .ok () ↔ m.inter required = required := by
  unfold check; split <;> simp_all

end AccessMask

/-- How far a walk has got with the rights it was asked for. -/
structure AccessState where
  /-- asked for, and granted by no visited object so far -/
  remaining : AccessMask
  /-- granted by the object visited last -/
  granted : AccessMask
  /-- asked for at the start -/
  desired : AccessMask
  deriving DecidableEq

namespace AccessState

/-- The start of a walk that asks for `desired`. -/
def new (desired : AccessMask) : AccessState := ⟨desired, AccessMask.none, desired⟩

/-- Visit an object on which `valid` rights exist. -/
def step (s : AccessState) (valid : AccessMask) : AccessState :=
  let granted := (s.remaining.union s.granted).inter valid
  ⟨s.remaining.inter granted.compl, granted, s.desired⟩

/-- Visit objects one after the other. -/
def visit (s : AccessState) (valids : List AccessMask) : AccessState := valids.foldl step s

/-- The states a walk passes, the start first. -/
def trail (s : AccessState) : List AccessMask → List AccessState
  | [] => [s]
  | v :: vs => s :: (s.step v).trail vs

theorem trail_getLast? (s : AccessState) (vs : List AccessMask) :
    (s.trail vs).getLast? = some (s.visit vs) := by
  induction vs generalizing s with
  | nil => rfl
  | cons v vs ih =>
    have : (s.step v).trail vs ≠ [] := by cases vs <;> simp [trail]
    simp [trail, visit, List.getLast?_cons, ih (s.step v)]

end AccessState

end Nucleus
