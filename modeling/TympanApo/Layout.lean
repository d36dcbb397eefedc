import TympanApo.Clsid
import TympanApo.Support.Positional

/-!
# Values in memory

The bytes of a `GUID` and of UTF-16 text on a little-endian target, and how
they are read back.
-/

namespace TympanApo

open TympanApo.Support

/-! ## Identifiers -/

/-- The bytes of a `GUID`. -/
def guidBytes (g : Guid) : List UInt8 :=
  leBytes 4 g.data1.toNat ++ leBytes 2 g.data2.toNat ++
    leBytes 2 g.data3.toNat ++ g.data4.toList

/-- Sixteen bytes read as a `GUID`. -/
def guidOfBytes (bs : List UInt8) : Guid where
  data1 := UInt32.ofNat (ofLeBytes (bs.take 4))
  data2 := UInt16.ofNat (ofLeBytes ((bs.drop 4).take 2))
  data3 := UInt16.ofNat (ofLeBytes ((bs.drop 6).take 2))
  data4 := Vector.ofFn fun i : Fin 8 => (bs.drop 8).getD i 0

@[simp] theorem length_guidBytes (g : Guid) : (guidBytes g).length = 16 := by
  simp [guidBytes]

theorem ofNat_ofLeBytes_leBytes32 (n : UInt32) :
    UInt32.ofNat (ofLeBytes (leBytes 4 n.toNat)) = n := by
  have hlt : n.toNat < 256 ^ 4 := n.toNat_lt
  rw [ofLeBytes_leBytes, Nat.mod_eq_of_lt hlt, UInt32.ofNat_toNat]

theorem ofNat_ofLeBytes_leBytes16 (n : UInt16) :
    UInt16.ofNat (ofLeBytes (leBytes 2 n.toNat)) = n := by
  have hlt : n.toNat < 256 ^ 2 := n.toNat_lt
  rw [ofLeBytes_leBytes, Nat.mod_eq_of_lt hlt, UInt16.ofNat_toNat]

/-- The fields of a `GUID` are found again where they were put. -/
@[simp] theorem guidOfBytes_guidBytes (g : Guid) :
    guidOfBytes (guidBytes g) = g := by
  have hdata1 : (guidBytes g).take 4 = leBytes 4 g.data1.toNat := by
    simp [guidBytes]
  have hdata2 : ((guidBytes g).drop 4).take 2 = leBytes 2 g.data2.toNat := by
    simp [guidBytes]
  have hdata3 : ((guidBytes g).drop 6).take 2 = leBytes 2 g.data3.toNat := by
    simp [guidBytes, List.take_append, List.drop_append]
  have hdata4 : (guidBytes g).drop 8 = g.data4.toList :=
    List.drop_left' (by simp)
  have hvector : (Vector.ofFn fun i : Fin 8 => g.data4.toList.getD i 0) =
      g.data4 := by
    ext i hi
    simp
  rw [guidOfBytes, hdata1, hdata2, hdata3, hdata4, hvector,
    ofNat_ofLeBytes_leBytes32, ofNat_ofLeBytes_leBytes16,
    ofNat_ofLeBytes_leBytes16]

theorem guidBytes_injective : Function.Injective guidBytes :=
  Function.LeftInverse.injective guidOfBytes_guidBytes

/-! ## Text -/

/-- `wide_bytes`, on a little-endian target. -/
def wideBytes (w : List UInt16) : List UInt8 :=
  w.flatMap fun u => leBytes 2 u.toNat

@[simp] theorem length_wideBytes (w : List UInt16) :
    (wideBytes w).length = w.length * 2 := by
  induction w with
  | nil => rfl
  | cons u w ih =>
      rw [wideBytes, List.flatMap_cons, List.length_append, length_leBytes]
      exact (congrArg (2 + ·) ih).trans (by rw [List.length_cons]; omega)

/-- Bytes read as UTF-16 units. -/
def unitsOfBytes : List UInt8 → List UInt16
  | low :: high :: bs =>
      UInt16.ofNat (ofLeBytes [low, high]) :: unitsOfBytes bs
  | _ => []

/-- The units of a text are found again where they were put. -/
@[simp] theorem unitsOfBytes_wideBytes (w : List UInt16) :
    unitsOfBytes (wideBytes w) = w := by
  induction w with
  | nil => rfl
  | cons u w ih =>
      have hunit : leBytes 2 u.toNat = [UInt8.ofNat (u.toNat % 256),
          UInt8.ofNat (u.toNat / 256 % 256)] := rfl
      have hread := ofNat_ofLeBytes_leBytes16 u
      rw [hunit] at hread
      rw [wideBytes, List.flatMap_cons, hunit, List.cons_append,
        List.cons_append, List.nil_append, unitsOfBytes, hread]
      exact congrArg (u :: ·) ih

theorem wideBytes_injective : Function.Injective wideBytes :=
  Function.LeftInverse.injective unitsOfBytes_wideBytes

/-! ## Allocation -/

/-- `CoTaskMemAlloc`: for each size, null or the bytes found in a fresh
block. -/
abbrev CoTaskMemAlloc := UInt64 → Option (ℕ → UInt8)

end TympanApo
