import Mathlib.Data.List.Basic
import Mathlib.Order.Nat

/-!
# Blocks of memory

A block of known size is written range by range.  The bytes are a function of
the offset, so a write past the end is not stopped; every write is recorded,
and the block is sound when all of them lie inside.  Reads see the last write
and nothing of the writes beside them; arrays of equal strides are written and
read element by element.
-/

namespace TympanApo.Support

/-- A block: its size, its bytes, and the offset and length of every write. -/
structure Block where
  size : ℕ
  bytes : ℕ → UInt8
  written : List (ℕ × ℕ)

namespace Block

/-- A block just allocated, with whatever was in the memory before. -/
def alloc (size : ℕ) (bytes : ℕ → UInt8) : Block where
  size := size
  bytes := bytes
  written := []

def write (b : Block) (offset : ℕ) (bs : List UInt8) : Block where
  size := b.size
  bytes a :=
    if offset ≤ a ∧ a < offset + bs.length then bs.getD (a - offset) 0
    else b.bytes a
  written := b.written ++ [(offset, bs.length)]

def read (b : Block) (offset n : ℕ) : List UInt8 :=
  (List.range n).map fun i => b.bytes (offset + i)

/-- Every write lies inside the block. -/
def InBounds (b : Block) : Prop :=
  ∀ w ∈ b.written, w.1 + w.2 ≤ b.size

variable {b : Block} {offset at_ n : ℕ} {bs : List UInt8}

@[simp] theorem length_read (b : Block) (offset n : ℕ) :
    (b.read offset n).length = n := by
  simp [read]

@[simp] theorem size_write (b : Block) (offset : ℕ) (bs : List UInt8) :
    (b.write offset bs).size = b.size :=
  rfl

/-- Reading back what was written. -/
theorem read_write_self (h : bs.length = n) :
    (b.write offset bs).read offset n = bs := by
  subst h
  refine List.ext_getElem (by simp) fun i hi _ => ?_
  rw [length_read] at hi
  simp [read, write, hi]

/-- A write beside a range leaves it alone. -/
theorem read_write_of_disjoint
    (h : at_ + n ≤ offset ∨ offset + bs.length ≤ at_) :
    (b.write offset bs).read at_ n = b.read at_ n := by
  refine List.map_congr_left fun i hi => ?_
  have hi := List.mem_range.mp hi
  have haside : ¬ (offset ≤ at_ + i ∧ at_ + i < offset + bs.length) := by
    omega
  simp [write, haside]

theorem inBounds_alloc (size : ℕ) (bytes : ℕ → UInt8) :
    (alloc size bytes).InBounds := by
  simp [InBounds, alloc]

theorem InBounds.write (h : b.InBounds) (hfits : offset + bs.length ≤ b.size) :
    (b.write offset bs).InBounds := by
  intro w hw
  rcases List.mem_append.mp hw with hold | hnew
  · exact h w hold
  · obtain rfl := List.mem_singleton.mp hnew
    exact hfits

/-! ## Records -/

/-- Write the fields of a record, each at its offset. -/
def writeAll (fields : List (ℕ × List UInt8)) (b : Block) : Block :=
  fields.foldl (fun b f => b.write f.1 f.2) b

/-- Every field ends before the fields after it begin. -/
def Ordered (fields : List (ℕ × List UInt8)) : Prop :=
  fields.Pairwise fun f g => f.1 + f.2.length ≤ g.1

@[simp] theorem size_writeAll (fields : List (ℕ × List UInt8)) (b : Block) :
    (writeAll fields b).size = b.size := by
  induction fields generalizing b with
  | nil => rfl
  | cons f fields ih => exact ih (b.write f.1 f.2)

theorem read_writeAll_of_le {fields : List (ℕ × List UInt8)}
    (h : ∀ f ∈ fields, at_ + n ≤ f.1) :
    (writeAll fields b).read at_ n = b.read at_ n := by
  induction fields generalizing b with
  | nil => rfl
  | cons f fields ih =>
      obtain ⟨hfirst, hrest⟩ := List.forall_mem_cons.mp h
      exact (ih hrest).trans (read_write_of_disjoint (Or.inl hfirst))

/-- Every field of a record is found where it was put. -/
theorem read_writeAll {fields : List (ℕ × List UInt8)} (h : Ordered fields)
    {f : ℕ × List UInt8} (hf : f ∈ fields) :
    (writeAll fields b).read f.1 f.2.length = f.2 := by
  induction fields generalizing b with
  | nil => cases hf
  | cons g fields ih =>
      obtain ⟨hfirst, hrest⟩ := List.pairwise_cons.mp h
      rcases List.mem_cons.mp hf with rfl | hf
      · exact (read_writeAll_of_le hfirst).trans (read_write_self rfl)
      · exact ih hrest hf

theorem InBounds.writeAll {fields : List (ℕ × List UInt8)} (h : b.InBounds)
    (hfits : ∀ f ∈ fields, f.1 + f.2.length ≤ b.size) :
    (Block.writeAll fields b).InBounds := by
  induction fields generalizing b with
  | nil => exact h
  | cons f fields ih =>
      obtain ⟨hfirst, hrest⟩ := List.forall_mem_cons.mp hfits
      exact ih (h.write hfirst) hrest

/-! ## Arrays -/

section Arrays

variable {α : Type*}

/-- Write the elements in turn, each a stride after the one before. -/
def writeArray (encode : α → List UInt8) (stride : ℕ) :
    ℕ → List α → Block → Block
  | _, [], b => b
  | offset, x :: xs, b =>
      writeArray encode stride (offset + stride) xs (b.write offset (encode x))

/-- Read `n` elements, each a stride after the one before. -/
def readArray (decode : List UInt8 → α) (stride offset n : ℕ) (b : Block) :
    List α :=
  (List.range n).map fun i => decode (b.read (offset + i * stride) stride)

variable {encode : α → List UInt8} {stride : ℕ} {xs : List α}

@[simp] theorem size_writeArray :
    (writeArray encode stride offset xs b).size = b.size := by
  induction xs generalizing offset b with
  | nil => rfl
  | cons x xs ih =>
      rw [writeArray, ih]
      rfl

/-- What lies before an array is left alone. -/
theorem read_writeArray_of_le (h : at_ + n ≤ offset) :
    (writeArray encode stride offset xs b).read at_ n = b.read at_ n := by
  induction xs generalizing offset b with
  | nil => rfl
  | cons x xs ih =>
      rw [writeArray, ih (h.trans (Nat.le_add_right _ _)),
        read_write_of_disjoint (Or.inl h)]

theorem InBounds.writeArray (h : b.InBounds)
    (hencode : ∀ x, (encode x).length = stride)
    (hfits : offset + xs.length * stride ≤ b.size) :
    (Block.writeArray encode stride offset xs b).InBounds := by
  induction xs generalizing offset b with
  | nil => exact h
  | cons x xs ih =>
      rw [List.length_cons, Nat.succ_mul] at hfits
      refine ih (h.write ?_) ?_
      · rw [hencode]
        omega
      · rw [size_write]
        omega

/-- Reading an array gives what was written, in order. -/
theorem readArray_writeArray {β : Type*} {decode : List UInt8 → β}
    (hencode : ∀ x, (encode x).length = stride) (xs : List α) :
    readArray decode stride offset xs.length
      (Block.writeArray encode stride offset xs b) =
        xs.map fun x => decode (encode x) := by
  induction xs generalizing offset b with
  | nil => rfl
  | cons x xs ih =>
      have hhead : (Block.writeArray encode stride (offset + stride) xs
          (b.write offset (encode x))).read offset stride = encode x := by
        rw [read_writeArray_of_le le_rfl, read_write_self (hencode x)]
      have htail : readArray decode stride (offset + stride) xs.length
          (Block.writeArray encode stride (offset + stride) xs
            (b.write offset (encode x))) = xs.map fun x => decode (encode x) :=
        ih
      rw [readArray, List.length_cons, List.range_succ_eq_map, List.map_cons,
        List.map_map, List.map_cons, Block.writeArray, Nat.zero_mul,
        Nat.add_zero, hhead]
      refine congrArg (decode (encode x) :: ·) (Eq.trans ?_ htail)
      refine List.map_congr_left fun i _ => ?_
      rw [Function.comp_apply, Nat.succ_mul, Nat.add_comm (i * stride),
        ← Nat.add_assoc]

end Arrays

end Block

end TympanApo.Support
