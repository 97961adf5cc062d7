/-!
# Spans of time

A span is a signed number of nanoseconds that fits 64 bits. The bounds are part of the type, so
that nothing below has to argue about overflow: a constructor that leaves the range stops at its
end. The greatest span is a sentinel, "for ever"; a negative span is a value that every call
refuses, never a wrapped large one.

The scheduler counts in ticks of one time slice; `TimeSpan.ticksCeil` is the conversion.
-/

namespace Nucleus

/-- A signed span of nanoseconds. -/
structure TimeSpan where
  /-- the number of nanoseconds -/
  nanos : Int
  /-- no less than the least 64-bit integer -/
  lower : -0x8000000000000000 ≤ nanos := by decide
  /-- no more than the greatest 64-bit integer -/
  upper : nanos ≤ 0x7fffffffffffffff := by decide
  deriving DecidableEq

namespace TimeSpan

theorem ext_nanos {a b : TimeSpan} (h : a.nanos = b.nanos) : a = b := by
  cases a; cases b; cases h; rfl

/-- The span nearest to `n` nanoseconds. -/
def saturate (n : Int) : TimeSpan :=
  ⟨max (-0x8000000000000000) (min n 0x7fffffffffffffff), by omega, by omega⟩

/-- A number of nanoseconds that is in range is kept. -/
theorem nanos_saturate {n : Int} (hl : -0x8000000000000000 ≤ n) (hu : n ≤ 0x7fffffffffffffff) :
    (saturate n).nanos = n := by
  simp only [saturate]; omega

/-- The span of `n` microseconds. -/
def ofMicros (n : Int) : TimeSpan := saturate (n * 1000)

/-- The span of `n` milliseconds. -/
def ofMillis (n : Int) : TimeSpan := saturate (n * 1000000)

/-- No time at all; as a delay, a plain yield. -/
def zero : TimeSpan := ⟨0, by decide, by decide⟩

/-- For ever. -/
def infinite : TimeSpan := ⟨0x7fffffffffffffff, by decide, by decide⟩

/-- Is this the sentinel? -/
def isInfinite (s : TimeSpan) : Bool := s.nanos == 0x7fffffffffffffff

/-- Is this a request that every call refuses? -/
def isNegative (s : TimeSpan) : Bool := decide (s.nanos < 0)

/-- Is this span empty? -/
def isZero (s : TimeSpan) : Bool := s.nanos == 0

theorem isInfinite_iff {s : TimeSpan} : s.isInfinite = true ↔ s.nanos = 0x7fffffffffffffff := by
  simp [isInfinite]

theorem isNegative_iff {s : TimeSpan} : s.isNegative = true ↔ s.nanos < 0 := by
  simp [isNegative]

theorem isZero_iff {s : TimeSpan} : s.isZero = true ↔ s.nanos = 0 := by
  simp [isZero]

/-- How many periods of `slice` cover the span: none if the span is negative or for ever, or if
the slice is not positive. -/
def ticksCeil (s slice : TimeSpan) : Option Nat :=
  if s.nanos < 0 ∨ s.nanos = 0x7fffffffffffffff ∨ slice.nanos ≤ 0 then none
  else some ((s.nanos.toNat + slice.nanos.toNat - 1) / slice.nanos.toNat)

/-- The order of two spans as -1, 0 or 1. -/
def order (a b : TimeSpan) : Int :=
  if a.nanos < b.nanos then -1 else if a.nanos = b.nanos then 0 else 1

end TimeSpan

end Nucleus
