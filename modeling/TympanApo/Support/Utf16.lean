import Mathlib.Data.List.Basic
import Mathlib.Data.List.TakeWhile

/-!
# UTF-16

The encoding of characters as 16-bit code units, and the strict decoder, which
accepts a high surrogate only before a low one and a low surrogate only after
a high one.  The module proves that decoding undoes encoding, what is left of
an encoding that is cut after a number of units, and what is left of one that
is cut at its first zero.
-/

namespace TympanApo.Support.Utf16

/-! ## Code units -/

/-- Whether a character takes a surrogate pair. -/
def IsSupplementary (c : Char) : Prop :=
  0x10000 ≤ c.toNat

instance (c : Char) : Decidable (IsSupplementary c) :=
  inferInstanceAs (Decidable (0x10000 ≤ c.toNat))

/-- The high half of a supplementary character. -/
def highHalf (c : Char) : UInt16 :=
  UInt16.ofNat (0xD800 + (c.toNat - 0x10000) / 0x400)

/-- The low half of a supplementary character. -/
def lowHalf (c : Char) : UInt16 :=
  UInt16.ofNat (0xDC00 + (c.toNat - 0x10000) % 0x400)

def IsHigh (u : UInt16) : Prop :=
  0xD800 ≤ u.toNat ∧ u.toNat < 0xDC00

def IsLow (u : UInt16) : Prop :=
  0xDC00 ≤ u.toNat ∧ u.toNat < 0xE000

instance (u : UInt16) : Decidable (IsHigh u) :=
  inferInstanceAs (Decidable (_ ∧ _))

instance (u : UInt16) : Decidable (IsLow u) :=
  inferInstanceAs (Decidable (_ ∧ _))

/-- The character of a surrogate pair. -/
def combine (high low : UInt16) : Char :=
  Char.ofNat (0x10000 + (high.toNat - 0xD800) * 0x400 + (low.toNat - 0xDC00))

/-- The code units of a character. -/
def encodeChar (c : Char) : List UInt16 :=
  if IsSupplementary c then [highHalf c, lowHalf c]
  else [UInt16.ofNat c.toNat]

def encode (cs : List Char) : List UInt16 :=
  cs.flatMap encodeChar

/-- The strict decoder; `none` is an unpaired surrogate. -/
def decode : List UInt16 → Option (List Char)
  | [] => some []
  | [u] => if IsHigh u ∨ IsLow u then none else some [Char.ofNat u.toNat]
  | u :: v :: us =>
      if IsHigh u then
        if IsLow v then (decode us).map (combine u v :: ·) else none
      else if IsLow u then none
      else (decode (v :: us)).map (Char.ofNat u.toNat :: ·)

/-! ## The units of a character -/

variable {c : Char}

theorem toNat_lt_of_char (c : Char) :
    c.toNat < 0xD800 ∨ (0xDFFF < c.toNat ∧ c.toNat < 0x110000) :=
  c.valid

theorem toNat_highHalf (h : IsSupplementary c) :
    (highHalf c).toNat = 0xD800 + (c.toNat - 0x10000) / 0x400 := by
  have hvalid := toNat_lt_of_char c
  unfold IsSupplementary at h
  rw [highHalf, UInt16.toNat_ofNat_of_lt']
  rw [UInt16.size]
  omega

theorem toNat_lowHalf (c : Char) :
    (lowHalf c).toNat = 0xDC00 + (c.toNat - 0x10000) % 0x400 := by
  rw [lowHalf, UInt16.toNat_ofNat_of_lt']
  rw [UInt16.size]
  omega

theorem toNat_basic (h : ¬ IsSupplementary c) :
    (UInt16.ofNat c.toNat).toNat = c.toNat := by
  unfold IsSupplementary at h
  rw [UInt16.toNat_ofNat_of_lt']
  rw [UInt16.size]
  omega

theorem isHigh_highHalf (h : IsSupplementary c) : IsHigh (highHalf c) := by
  have hvalid := toNat_lt_of_char c
  have hvalue := toNat_highHalf h
  unfold IsSupplementary at h
  unfold IsHigh
  omega

theorem isLow_lowHalf (c : Char) : IsLow (lowHalf c) := by
  have hvalue := toNat_lowHalf c
  unfold IsLow
  omega

theorem not_surrogate_basic (h : ¬ IsSupplementary c) :
    ¬ IsHigh (UInt16.ofNat c.toNat) ∧ ¬ IsLow (UInt16.ofNat c.toNat) := by
  have hvalid := toNat_lt_of_char c
  have hvalue := toNat_basic h
  unfold IsSupplementary at h
  unfold IsHigh IsLow
  omega

/-- The two halves determine the character. -/
theorem combine_halves (h : IsSupplementary c) :
    combine (highHalf c) (lowHalf c) = c := by
  have hhigh := toNat_highHalf h
  have hlow := toNat_lowHalf c
  unfold IsSupplementary at h
  have hvalue : 0x10000 + ((highHalf c).toNat - 0xD800) * 0x400 +
      ((lowHalf c).toNat - 0xDC00) = c.toNat := by
    omega
  rw [combine, hvalue, Char.ofNat_toNat]

theorem encodeChar_of_supplementary (h : IsSupplementary c) :
    encodeChar c = [highHalf c, lowHalf c] :=
  if_pos h

theorem encodeChar_of_basic (h : ¬ IsSupplementary c) :
    encodeChar c = [UInt16.ofNat c.toNat] :=
  if_neg h

/-! ## Decoding what was encoded -/

theorem decode_encodeChar_append (c : Char) (us : List UInt16) :
    decode (encodeChar c ++ us) = (decode us).map (c :: ·) := by
  by_cases h : IsSupplementary c
  · rw [encodeChar_of_supplementary h]
    simp only [List.cons_append, List.nil_append, decode]
    rw [if_pos (isHigh_highHalf h), if_pos (isLow_lowHalf c),
      combine_halves h]
  · obtain ⟨hhigh, hlow⟩ := not_surrogate_basic h
    rw [encodeChar_of_basic h]
    cases us with
    | nil =>
        simp [decode, hhigh, hlow, toNat_basic h]
    | cons u us =>
        simp only [List.cons_append, List.nil_append, decode]
        rw [if_neg hhigh, if_neg hlow, toNat_basic h, Char.ofNat_toNat]

/-- A whole number of encoded characters decodes on its own. -/
theorem decode_encode_append (cs : List Char) (us : List UInt16) :
    decode (encode cs ++ us) = (decode us).map (cs ++ ·) := by
  induction cs with
  | nil => simp [encode]
  | cons c cs ih =>
      have hcons : encode (c :: cs) ++ us =
          encodeChar c ++ (encode cs ++ us) := by
        simp [encode]
      rw [hcons, decode_encodeChar_append, ih, Option.map_map]
      rfl

/-- Decoding undoes encoding. -/
theorem decode_encode (cs : List Char) : decode (encode cs) = some cs := by
  have hwhole := decode_encode_append cs []
  simpa [decode] using hwhole

/-- An encoding cut inside a surrogate pair does not decode. -/
theorem decode_encode_concat_high (cs : List Char) {u : UInt16}
    (h : IsHigh u) : decode (encode cs ++ [u]) = none := by
  rw [decode_encode_append]
  simp [decode, h]

/-! ## Cutting after a number of units -/

@[simp] theorem encode_nil : encode [] = [] := rfl

theorem encode_cons (c : Char) (cs : List Char) :
    encode (c :: cs) = encodeChar c ++ encode cs := rfl

theorem encode_append (cs ds : List Char) :
    encode (cs ++ ds) = encode cs ++ encode ds :=
  List.flatMap_append

theorem encode_injective : Function.Injective encode := by
  intro cs ds h
  have hdecode := congrArg decode h
  rwa [decode_encode, decode_encode, Option.some.injEq] at hdecode

/-- The first `n` units of an encoding are whole characters, or whole
characters and the high half of the next one. -/
theorem take_encode (cs : List Char) (n : ℕ) :
    (∃ whole, whole <+: cs ∧ (encode cs).take n = encode whole) ∨
      ∃ whole c rest, cs = whole ++ c :: rest ∧ IsSupplementary c ∧
        (encode whole).length + 1 = n ∧
        (encode cs).take n = encode whole ++ [highHalf c] := by
  induction cs generalizing n with
  | nil => exact .inl ⟨[], List.prefix_rfl, by simp⟩
  | cons c cs ih =>
      by_cases hfits : (encodeChar c).length ≤ n
      · obtain ⟨k, rfl⟩ := Nat.exists_eq_add_of_le hfits
        have htake : (encode (c :: cs)).take ((encodeChar c).length + k) =
            encodeChar c ++ (encode cs).take k := by
          rw [encode_cons, List.take_length_add_append]
        rcases ih k with ⟨whole, hwhole, hk⟩ | ⟨whole, d, rest, rfl, hd, hlen, hk⟩
        · left
          refine ⟨c :: whole, List.cons_prefix_cons.mpr ⟨rfl, hwhole⟩, ?_⟩
          rw [htake, hk, encode_cons]
        · right
          refine ⟨c :: whole, d, rest, rfl, hd, ?_, ?_⟩
          · rw [encode_cons, List.length_append, Nat.add_assoc, hlen]
          · rw [htake, hk, encode_cons, List.append_assoc]
      · by_cases h : IsSupplementary c
        · rw [encodeChar_of_supplementary h] at hfits
          simp only [List.length_cons, List.length_nil] at hfits
          have hcut : n = 0 ∨ n = 1 := by omega
          rcases hcut with rfl | rfl
          · exact .inl ⟨[], List.nil_prefix, rfl⟩
          · right
            refine ⟨[], c, cs, rfl, h, rfl, ?_⟩
            rw [encode_cons, encodeChar_of_supplementary h]
            rfl
        · rw [encodeChar_of_basic h] at hfits
          simp only [List.length_singleton] at hfits
          obtain rfl : n = 0 := by omega
          exact .inl ⟨[], List.nil_prefix, rfl⟩

/-! ## Cutting at the first zero -/

/-- Only the zero character has a zero unit. -/
theorem ne_zero_of_mem_encodeChar {u : UInt16} (hc : c.toNat ≠ 0)
    (hu : u ∈ encodeChar c) : u ≠ 0 := by
  intro hzero
  by_cases h : IsSupplementary c
  · have hhigh := toNat_highHalf h
    have hlow := toNat_lowHalf c
    rw [encodeChar_of_supplementary h] at hu
    simp only [List.mem_cons, List.not_mem_nil, or_false] at hu
    rcases hu with rfl | rfl
    · rw [hzero, UInt16.toNat_zero] at hhigh
      omega
    · rw [hzero, UInt16.toNat_zero] at hlow
      omega
  · rw [encodeChar_of_basic h, List.mem_singleton] at hu
    have hvalue := toNat_basic h
    rw [← hu, hzero] at hvalue
    exact hc hvalue.symm

/-- An encoding up to its first zero encodes the characters before the first
zero character. -/
theorem takeWhile_encode (cs : List Char) :
    (encode cs).takeWhile (· != 0) =
      encode (cs.takeWhile fun c => c.toNat != 0) := by
  induction cs with
  | nil => rfl
  | cons c cs ih =>
      by_cases hc : c.toNat = 0
      · have h : ¬ IsSupplementary c := by
          unfold IsSupplementary
          omega
        rw [encode_cons, encodeChar_of_basic h]
        simp [hc]
      · have hunits : ∀ u ∈ encodeChar c, (u != 0) = true := by
          intro u hu
          simpa using ne_zero_of_mem_encodeChar hc hu
        rw [encode_cons, List.takeWhile_append_of_pos hunits, ih]
        simp [hc, encode_cons]

end TympanApo.Support.Utf16
