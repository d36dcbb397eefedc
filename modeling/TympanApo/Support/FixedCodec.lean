import Mathlib.Data.List.Basic
import Mathlib.Order.Nat

/-!
# Codecs of fixed width

A codec writes every value as the same number of bytes and reads it back.
Codecs of parts give a codec of the pair, laid out without a gap, and a codec
of anything that is made of the parts.  Reading from memory succeeds exactly
when enough bytes may be read, and looks at no others.
-/

namespace TympanApo.Support

variable {α β γ : Type*}

/-- Values of `α` as `width` bytes. -/
structure FixedCodec (α : Type*) where
  width : ℕ
  encode : α → List UInt8
  decode : List UInt8 → α
  length_encode : ∀ a, (encode a).length = width
  decode_encode : ∀ a, decode (encode a) = a

namespace FixedCodec

attribute [simp] length_encode decode_encode

/-- One value after another. -/
def pair (c : FixedCodec α) (d : FixedCodec β) : FixedCodec (α × β) where
  width := c.width + d.width
  encode x := c.encode x.1 ++ d.encode x.2
  decode bs := (c.decode (bs.take c.width), d.decode (bs.drop c.width))
  length_encode x := by simp
  decode_encode x := by
    rw [List.take_left' (c.length_encode x.1),
      List.drop_left' (c.length_encode x.1), c.decode_encode, d.decode_encode]

/-- A value made of the parts that the codec writes. -/
def record (c : FixedCodec α) (make : α → β) (parts : β → α)
    (h : ∀ b, make (parts b) = b) : FixedCodec β where
  width := c.width
  encode b := c.encode (parts b)
  decode bs := make (c.decode bs)
  length_encode b := c.length_encode (parts b)
  decode_encode b := by rw [c.decode_encode, h]

/-- Read a value from the bytes that may be read from a pointer on. -/
def read (c : FixedCodec α) (memory : List UInt8) : Option α :=
  if c.width ≤ memory.length then some (c.decode (memory.take c.width))
  else none

variable {c : FixedCodec α} {memory : List UInt8}

theorem read_of_le (h : c.width ≤ memory.length) :
    c.read memory = some (c.decode (memory.take c.width)) :=
  if_pos h

theorem read_eq_none_iff : c.read memory = none ↔ memory.length < c.width := by
  rw [read, ← not_le]
  split
  next h => simp [h]
  next h => simp [h]

/-- What was written is read back, whatever follows it. -/
theorem read_encode (c : FixedCodec α) (a : α) (rest : List UInt8) :
    c.read (c.encode a ++ rest) = some a := by
  rw [read_of_le (by simp), List.take_left' (c.length_encode a),
    c.decode_encode]

/-- Bytes past the width make no difference. -/
theorem read_take (c : FixedCodec α) (memory : List UInt8) {n : ℕ}
    (h : c.width ≤ n) : c.read (memory.take n) = c.read memory := by
  by_cases hle : c.width ≤ memory.length
  · have htake : c.width ≤ (memory.take n).length := by
      rw [List.length_take]
      exact le_min h hle
    rw [read_of_le hle, read_of_le htake, List.take_take, min_eq_left h]
  · have htake : (memory.take n).length < c.width :=
      (List.length_take_le' n memory).trans_lt (not_le.mp hle)
    rw [read_eq_none_iff.mpr (not_le.mp hle), read_eq_none_iff.mpr htake]

/-- The first part is read where the pair is. -/
theorem read_pair_fst {d : FixedCodec β} {x : α × β}
    (h : (c.pair d).read memory = some x) : c.read memory = some x.1 := by
  have hle : (c.pair d).width ≤ memory.length := by
    by_contra hlt
    rw [read_eq_none_iff.mpr (not_le.mp hlt)] at h
    cases h
  rw [read_of_le hle] at h
  obtain rfl := Option.some.inj h
  have hfirst : c.width ≤ memory.length := (Nat.le_add_right _ _).trans hle
  rw [read_of_le hfirst]
  simp only [pair, List.take_take, Nat.min_eq_left (Nat.le_add_right _ _)]

end FixedCodec

end TympanApo.Support
