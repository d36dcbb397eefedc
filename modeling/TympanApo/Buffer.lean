import Mathlib.Algebra.Group.Nat.Defs
import Mathlib.Order.Nat

/-!
# Audio buffers at the APO boundary

Buffer flags and connection properties of `buffer.rs`, and the sample slices
the realtime entry points form from them.  A `usize` is 64 bits wide: the
library only links on 64-bit targets.
-/

namespace TympanApo

/-- The raw flag word of a buffer; values other than the three named ones
round-trip. -/
structure BufferFlags where
  val : Int32
  deriving DecidableEq, Repr

namespace BufferFlags

def invalid : BufferFlags := ⟨0⟩

def valid : BufferFlags := ⟨1⟩

def silent : BufferFlags := ⟨2⟩

end BufferFlags

/-- `'APOC'` as a big-endian word. -/
def connectionPropertySignature : UInt32 := 0x41504F43

/-- `APO_CONNECTION_PROPERTY`. -/
structure ConnectionProperty where
  pBuffer : UInt64
  u32ValidFrameCount : UInt32
  u32BufferFlags : BufferFlags
  u32Signature : UInt32
  deriving DecidableEq, Repr

/-- A slice of float32 samples: the address of the first sample and the
number of samples. -/
structure Slice where
  addr : UInt64
  len : UInt64
  deriving DecidableEq, Repr

/-- The bytes a slice covers. -/
def Slice.bytes (s : Slice) : ℕ :=
  4 * s.len.toNat

/-- `usize::checked_mul`. -/
def checkedMul (a b : UInt64) : Option UInt64 :=
  if a.toNat * b.toNat < 2 ^ 64 then some (a * b) else none

theorem checkedMul_eq_some {a b : UInt64} (h : a.toNat * b.toNat < 2 ^ 64) :
    ∃ n : UInt64, checkedMul a b = some n ∧ n.toNat = a.toNat * b.toNat := by
  refine ⟨a * b, if_pos h, ?_⟩
  rw [UInt64.toNat_mul, Nat.mod_eq_of_lt h]

theorem toNat_of_checkedMul {a b n : UInt64} (h : checkedMul a b = some n) :
    n.toNat = a.toNat * b.toNat := by
  unfold checkedMul at h
  split at h
  next hfits =>
    cases h
    rw [UInt64.toNat_mul, Nat.mod_eq_of_lt hfits]
  next => cases h

/-- `usize::checked_add`. -/
def checkedAdd (a b : UInt64) : Option UInt64 :=
  if a.toNat + b.toNat < 2 ^ 64 then some (a + b) else none

theorem checkedAdd_eq_some {a b : UInt64} (h : a.toNat + b.toNat < 2 ^ 64) :
    ∃ n : UInt64, checkedAdd a b = some n ∧ n.toNat = a.toNat + b.toNat := by
  refine ⟨a + b, if_pos h, ?_⟩
  rw [UInt64.toNat_add, Nat.mod_eq_of_lt h]

theorem toNat_of_checkedAdd {a b n : UInt64} (h : checkedAdd a b = some n) :
    n.toNat = a.toNat + b.toNat := by
  unfold checkedAdd at h
  split at h
  next hfits =>
    cases h
    rw [UInt64.toNat_add, Nat.mod_eq_of_lt hfits]
  next => cases h

/-- The sample count of a buffer of 32-bit many frames and 16-bit many
channels fits a `usize`. -/
theorem checkedMul_frames_channels (frames : UInt32) (channels : UInt16) :
    ∃ n : UInt64, checkedMul frames.toUInt64 channels.toUInt64 = some n ∧
      n.toNat = frames.toNat * channels.toNat := by
  have hframes := frames.toNat_lt
  have hchannels := channels.toNat_lt
  have hprod : frames.toNat * channels.toNat < 2 ^ 32 * 2 ^ 16 :=
    Nat.mul_lt_mul'' hframes hchannels
  have hfits : frames.toUInt64.toNat * channels.toUInt64.toNat < 2 ^ 64 := by
    rw [UInt32.toNat_toUInt64, UInt16.toNat_toUInt64]
    omega
  simpa using checkedMul_eq_some hfits

end TympanApo
