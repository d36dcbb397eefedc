/-!
# The COM reference counter

`realtime/refcount.rs`: a wrapping 32-bit counter whose two write paths return
the new count.  The debug assertions are kept as predicates of the count they
guard.
-/

namespace TympanApo.Realtime

/-- Reference counter. -/
structure Refcount where
  count : UInt32
  deriving DecidableEq, Repr

namespace Refcount

/-- `Refcount::new`. -/
def new : Refcount :=
  ⟨0⟩

/-- `Refcount::add_ref`: the new count and the counter it leaves. -/
def addRef (self : Refcount) : UInt32 × Refcount :=
  (self.count + 1, ⟨self.count + 1⟩)

/-- The assertion of `add_ref`: the counter does not overflow. -/
def AddRefAsserts (self : Refcount) : Prop :=
  self.count < 0xFFFFFFFF

/-- `Refcount::release`: the new count and the counter it leaves. -/
def release (self : Refcount) : UInt32 × Refcount :=
  (self.count - 1, ⟨self.count - 1⟩)

/-- The assertion of `release`: there is a reference to give up. -/
def ReleaseAsserts (self : Refcount) : Prop :=
  0 < self.count

/-- `Refcount::is_zero`. -/
def isZero (self : Refcount) : Bool :=
  self.count == 0

end Refcount

end TympanApo.Realtime
