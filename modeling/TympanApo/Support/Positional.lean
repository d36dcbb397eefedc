import Mathlib.Algebra.Group.Nat.Defs
import Mathlib.Data.List.Induction
import Mathlib.Order.Nat

/-!
# Fixed-width numerals

The digits of a number in a base, padded or cut to a fixed width, the most
significant one first.  A text in hexadecimal and the bytes of an integer are
both numerals of this kind, so the rules for cutting a numeral into fields and
for regrouping its digits are proved here once.
-/

namespace TympanApo.Support

variable {b v w m n : ℕ}

/-! ## Digits -/

/-- The `w` low digits of `n` in base `b`. -/
def beDigits (b : ℕ) : ℕ → ℕ → List ℕ
  | 0, _ => []
  | w + 1, n => beDigits b w (n / b) ++ [n % b]

/-- The number with the given digits. -/
def ofBeDigits (b : ℕ) (ds : List ℕ) : ℕ :=
  ds.foldl (fun n d => n * b + d) 0

@[simp] theorem ofBeDigits_nil : ofBeDigits b [] = 0 := rfl

theorem ofBeDigits_concat (ds : List ℕ) (d : ℕ) :
    ofBeDigits b (ds ++ [d]) = ofBeDigits b ds * b + d := by
  simp [ofBeDigits]

@[simp] theorem length_beDigits (b w n : ℕ) : (beDigits b w n).length = w := by
  induction w generalizing n with
  | zero => rfl
  | succ w ih => simp [beDigits, ih]

theorem lt_of_mem_beDigits (hb : 0 < b) {d : ℕ} (hd : d ∈ beDigits b w n) :
    d < b := by
  induction w generalizing n with
  | zero => simp [beDigits] at hd
  | succ w ih =>
      rcases List.mem_append.mp hd with hhigh | hlow
      · exact ih hhigh
      · rw [List.mem_singleton.mp hlow]
        exact Nat.mod_lt n hb

theorem ofBeDigits_lt {ds : List ℕ} (h : ∀ d ∈ ds, d < b) :
    ofBeDigits b ds < b ^ ds.length := by
  induction ds using List.reverseRecOn with
  | nil => simp
  | append_singleton ds d ih =>
      have hhigh := ih fun d hd => h d (List.mem_append_left _ hd)
      have hlow : d < b := h d (by simp)
      rw [ofBeDigits_concat, List.length_append, List.length_singleton,
        Nat.pow_succ]
      calc ofBeDigits b ds * b + d
        _ < ofBeDigits b ds * b + b := Nat.add_lt_add_left hlow _
        _ = (ofBeDigits b ds + 1) * b := (Nat.succ_mul _ _).symm
        _ ≤ b ^ ds.length * b := Nat.mul_le_mul_right b hhigh

/-- Reading the digits of a number gives its residue. -/
theorem ofBeDigits_beDigits (b w n : ℕ) :
    ofBeDigits b (beDigits b w n) = n % b ^ w := by
  induction w generalizing n with
  | zero => simp [beDigits, Nat.mod_one]
  | succ w ih =>
      rw [beDigits, ofBeDigits_concat, ih, Nat.pow_succ, Nat.mul_comm (b ^ w),
        Nat.mod_mul, Nat.mul_comm b, Nat.add_comm]

/-- Writing the number with given digits gives the digits back. -/
theorem beDigits_ofBeDigits {ds : List ℕ} (h : ∀ d ∈ ds, d < b) :
    beDigits b ds.length (ofBeDigits b ds) = ds := by
  induction ds using List.reverseRecOn with
  | nil => rfl
  | append_singleton ds d ih =>
      have hlow : d < b := h d (by simp)
      have hb : 0 < b := Nat.zero_lt_of_lt hlow
      have hdiv : (ofBeDigits b ds * b + d) / b = ofBeDigits b ds := by
        rw [Nat.mul_comm, Nat.mul_add_div hb, Nat.div_eq_of_lt hlow,
          Nat.add_zero]
      have hmod : (ofBeDigits b ds * b + d) % b = d := by
        rw [Nat.mul_comm, Nat.mul_add_mod, Nat.mod_eq_of_lt hlow]
      rw [List.length_append, List.length_singleton, beDigits,
        ofBeDigits_concat, hdiv, hmod,
        ih fun d hd => h d (List.mem_append_left _ hd)]

theorem beDigits_injective (hm : m < b ^ w) (hn : n < b ^ w)
    (h : beDigits b w m = beDigits b w n) : m = n := by
  have hvalue := congrArg (ofBeDigits b) h
  rwa [ofBeDigits_beDigits, ofBeDigits_beDigits, Nat.mod_eq_of_lt hm,
    Nat.mod_eq_of_lt hn] at hvalue

/-- A numeral is cut into a high and a low field. -/
theorem beDigits_append (v m : ℕ) (hn : n < b ^ w) :
    beDigits b (v + w) (m * b ^ w + n) = beDigits b v m ++ beDigits b w n := by
  induction w generalizing n with
  | zero =>
      obtain rfl : n = 0 := by simpa using hn
      simp [beDigits]
  | succ w ih =>
      rw [Nat.pow_succ] at hn
      have hb : 0 < b := by
        rcases Nat.eq_zero_or_pos b with rfl | hb
        · simp at hn
        · exact hb
      have hdiv : (m * b ^ (w + 1) + n) / b = m * b ^ w + n / b := by
        rw [Nat.pow_succ, ← Nat.mul_assoc, Nat.mul_comm _ b,
          Nat.mul_add_div hb]
      have hmod : (m * b ^ (w + 1) + n) % b = n % b := by
        rw [Nat.pow_succ, ← Nat.mul_assoc, Nat.mul_comm _ b, Nat.mul_add_mod]
      rw [← Nat.add_assoc, beDigits, hdiv, hmod,
        ih ((Nat.div_lt_iff_lt_mul hb).mpr hn), beDigits, List.append_assoc]

/-- The digits in base `b ^ w`, each written with `w` digits in base `b`. -/
theorem flatMap_beDigits {ds : List ℕ} (h : ∀ d ∈ ds, d < b ^ w) :
    ds.flatMap (beDigits b w) =
      beDigits b (ds.length * w) (ofBeDigits (b ^ w) ds) := by
  induction ds using List.reverseRecOn with
  | nil => simp [beDigits]
  | append_singleton ds d ih =>
      have hlow : d < b ^ w := h d (by simp)
      rw [List.flatMap_append, List.flatMap_singleton, ofBeDigits_concat,
        List.length_append, List.length_singleton, Nat.succ_mul,
        beDigits_append _ _ hlow,
        ih fun d hd => h d (List.mem_append_left _ hd)]

/-! ## Bytes -/

/-- `to_be_bytes` of an integer of `w` bytes. -/
def beBytes (w n : ℕ) : List UInt8 :=
  (beDigits 256 w n).map UInt8.ofNat

/-- `from_be_bytes`. -/
def ofBeBytes (bs : List UInt8) : ℕ :=
  ofBeDigits 256 (bs.map UInt8.toNat)

/-- `to_le_bytes` of an integer of `w` bytes. -/
def leBytes (w n : ℕ) : List UInt8 :=
  (beBytes w n).reverse

/-- `from_le_bytes`. -/
def ofLeBytes (bs : List UInt8) : ℕ :=
  ofBeBytes bs.reverse

theorem lt_of_mem_map_toNat {bs : List UInt8} {d : ℕ}
    (hd : d ∈ bs.map UInt8.toNat) : d < 256 := by
  obtain ⟨u, -, rfl⟩ := List.mem_map.mp hd
  exact u.toNat_lt

@[simp] theorem length_beBytes (w n : ℕ) : (beBytes w n).length = w := by
  simp [beBytes]

@[simp] theorem length_leBytes (w n : ℕ) : (leBytes w n).length = w := by
  simp [leBytes]

theorem map_toNat_beBytes (w n : ℕ) :
    (beBytes w n).map UInt8.toNat = beDigits 256 w n := by
  have hid : ∀ d ∈ beDigits 256 w n, (UInt8.toNat ∘ UInt8.ofNat) d = d := by
    intro d hd
    have hlt := lt_of_mem_beDigits (by decide) hd
    simp [Nat.mod_eq_of_lt hlt]
  rw [beBytes, List.map_map, List.map_congr_left hid, List.map_id']

/-- Reading the bytes of an integer gives its residue. -/
theorem ofBeBytes_beBytes (w n : ℕ) :
    ofBeBytes (beBytes w n) = n % 256 ^ w := by
  rw [ofBeBytes, map_toNat_beBytes, ofBeDigits_beDigits]

theorem ofBeBytes_lt (bs : List UInt8) : ofBeBytes bs < 256 ^ bs.length := by
  have hlt : ofBeBytes bs < 256 ^ (bs.map UInt8.toNat).length :=
    ofBeDigits_lt fun _ => lt_of_mem_map_toNat
  rwa [List.length_map] at hlt

/-- Writing the integer with given bytes gives the bytes back. -/
theorem beBytes_ofBeBytes (bs : List UInt8) :
    beBytes bs.length (ofBeBytes bs) = bs := by
  have hdigits : beDigits 256 (bs.map UInt8.toNat).length (ofBeBytes bs) =
      bs.map UInt8.toNat :=
    beDigits_ofBeDigits fun _ => lt_of_mem_map_toNat
  rw [List.length_map] at hdigits
  rw [beBytes, hdigits, List.map_map]
  simp [Function.comp_def]

theorem ofLeBytes_leBytes (w n : ℕ) :
    ofLeBytes (leBytes w n) = n % 256 ^ w := by
  rw [ofLeBytes, leBytes, List.reverse_reverse, ofBeBytes_beBytes]

/-! ## Hexadecimal text -/

/-- A digit in upper case. -/
def hexDigit (d : ℕ) : Char :=
  "0123456789ABCDEF".toList.getD d '0'

/-- The value of a digit in upper case. -/
def hexValue (c : Char) : ℕ :=
  "0123456789ABCDEF".toList.idxOf c

theorem hexValue_hexDigit : ∀ d < 16, hexValue (hexDigit d) = d := by
  decide

/-- `{:0wX}` of an integer of `4 * w` bits. -/
def hexChars (w n : ℕ) : List Char :=
  (beDigits 16 w n).map hexDigit

@[simp] theorem length_hexChars (w n : ℕ) : (hexChars w n).length = w := by
  simp [hexChars]

/-- Every character of a hexadecimal text has what all sixteen digits have. -/
theorem forall_mem_hexChars {P : Char → Prop} (h : ∀ d < 16, P (hexDigit d)) :
    ∀ c ∈ hexChars w n, P c := by
  intro c hc
  obtain ⟨d, hd, rfl⟩ := List.mem_map.mp hc
  exact h d (lt_of_mem_beDigits (by decide) hd)

theorem map_hexValue_hexChars (w n : ℕ) :
    (hexChars w n).map hexValue = beDigits 16 w n := by
  have hid : ∀ d ∈ beDigits 16 w n, (hexValue ∘ hexDigit) d = d := fun d hd =>
    hexValue_hexDigit d (lt_of_mem_beDigits (by decide) hd)
  rw [hexChars, List.map_map, List.map_congr_left hid, List.map_id']

theorem hexChars_injective (hm : m < 16 ^ w) (hn : n < 16 ^ w)
    (h : hexChars w m = hexChars w n) : m = n := by
  have hdigits := congrArg (List.map hexValue) h
  rw [map_hexValue_hexChars, map_hexValue_hexChars] at hdigits
  exact beDigits_injective hm hn hdigits

/-- Two digits a byte. -/
theorem flatMap_hexChars (bs : List UInt8) :
    bs.flatMap (fun u => hexChars 2 u.toNat) =
      hexChars (bs.length * 2) (ofBeBytes bs) := by
  have hdigits : (bs.map UInt8.toNat).flatMap (beDigits 16 2) =
      beDigits 16 ((bs.map UInt8.toNat).length * 2) (ofBeBytes bs) :=
    flatMap_beDigits fun _ => lt_of_mem_map_toNat
  rw [List.length_map, List.flatMap_map] at hdigits
  have htext := congrArg (List.map hexDigit) hdigits
  rw [List.map_flatMap] at htext
  exact htext

end TympanApo.Support
