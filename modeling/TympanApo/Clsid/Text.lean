import TympanApo.Clsid
import TympanApo.Support.Positional

/-!
# Class identifiers as integers and as text

The conversions of `clsid.rs` between the four fields of a `Clsid`, one
128-bit integer and the text in braces that `Display` writes.  The text is the
hexadecimal of the integer with separators, so it determines the identifier.
-/

namespace TympanApo.Clsid

open TympanApo.Support

/-! ## One big-endian integer -/

/-- `u128::to_be_bytes`. -/
def u128ToBeBytes (value : BitVec 128) : Vector UInt8 16 :=
  ⟨(beBytes 16 value.toNat).toArray, by simp⟩

/-- `u32::from_be_bytes`. -/
def u32FromBeBytes (bs : List UInt8) : UInt32 :=
  UInt32.ofNat (ofBeBytes bs)

/-- `u16::from_be_bytes`. -/
def u16FromBeBytes (bs : List UInt8) : UInt16 :=
  UInt16.ofNat (ofBeBytes bs)

/-- `Clsid::from_u128`. -/
def fromU128 (value : BitVec 128) : Clsid :=
  let b := u128ToBeBytes value
  { data1 := u32FromBeBytes [b[0], b[1], b[2], b[3]]
    data2 := u16FromBeBytes [b[4], b[5]]
    data3 := u16FromBeBytes [b[6], b[7]]
    data4 := #v[b[8], b[9], b[10], b[11], b[12], b[13], b[14], b[15]] }

/-- The bytes that `to_u128` lists. -/
def beByteList (self : Clsid) : List UInt8 :=
  [(self.data1 >>> 24).toUInt8, (self.data1 >>> 16).toUInt8,
    (self.data1 >>> 8).toUInt8, self.data1.toUInt8,
    (self.data2 >>> 8).toUInt8, self.data2.toUInt8,
    (self.data3 >>> 8).toUInt8, self.data3.toUInt8,
    self.data4[0], self.data4[1], self.data4[2], self.data4[3],
    self.data4[4], self.data4[5], self.data4[6], self.data4[7]]

/-- `Clsid::to_u128`. -/
def toU128 (self : Clsid) : BitVec 128 :=
  BitVec.ofNat 128 (ofBeBytes self.beByteList)

theorem toList_vector8 (v : Vector UInt8 8) :
    v.toList = [v[0], v[1], v[2], v[3], v[4], v[5], v[6], v[7]] := by
  obtain ⟨⟨l⟩, hlen⟩ := v
  match l, hlen with
  | [_, _, _, _, _, _, _, _], _ => rfl

theorem toList_vector16 (v : Vector UInt8 16) :
    v.toList = [v[0], v[1], v[2], v[3], v[4], v[5], v[6], v[7], v[8], v[9],
      v[10], v[11], v[12], v[13], v[14], v[15]] := by
  obtain ⟨⟨l⟩, hlen⟩ := v
  match l, hlen with
  | [_, _, _, _, _, _, _, _, _, _, _, _, _, _, _, _], _ => rfl

/-! ## Bytes of the fields -/

theorem eq_ofNat_of_toNat {u : UInt8} {n : ℕ} (h : u.toNat = n % 256) :
    u = UInt8.ofNat (n % 256) := by
  rw [← h, UInt8.ofNat_toNat]

theorem beBytes_u32 (x : UInt32) :
    [(x >>> 24).toUInt8, (x >>> 16).toUInt8, (x >>> 8).toUInt8, x.toUInt8] =
      beBytes 4 x.toNat := by
  simp only [beBytes, beDigits, List.nil_append, List.cons_append,
    List.map_cons, List.map_nil, List.cons.injEq, and_true]
  refine ⟨eq_ofNat_of_toNat ?_, eq_ofNat_of_toNat ?_, eq_ofNat_of_toNat ?_,
    eq_ofNat_of_toNat ?_⟩
  all_goals simp [Nat.shiftRight_eq_div_pow, Nat.div_div_eq_div_mul]

theorem beBytes_u16 (x : UInt16) :
    [(x >>> 8).toUInt8, x.toUInt8] = beBytes 2 x.toNat := by
  simp only [beBytes, beDigits, List.nil_append, List.cons_append,
    List.map_cons, List.map_nil, List.cons.injEq, and_true]
  refine ⟨eq_ofNat_of_toNat ?_, eq_ofNat_of_toNat ?_⟩
  all_goals simp [Nat.shiftRight_eq_div_pow]

/-- The fields in big-endian order. -/
theorem beByteList_eq (c : Clsid) :
    c.beByteList = beBytes 4 c.data1.toNat ++ beBytes 2 c.data2.toNat ++
      beBytes 2 c.data3.toNat ++ c.data4.toList := by
  rw [← beBytes_u32, ← beBytes_u16, ← beBytes_u16, toList_vector8]
  rfl

theorem length_beByteList (c : Clsid) : c.beByteList.length = 16 := rfl

theorem beBytes_u32FromBeBytes {bs : List UInt8} (h : bs.length = 4) :
    beBytes 4 (u32FromBeBytes bs).toNat = bs := by
  have hlt := ofBeBytes_lt bs
  have hback := beBytes_ofBeBytes bs
  rw [h] at hlt hback
  rw [u32FromBeBytes, UInt32.toNat_ofNat_of_lt' hlt, hback]

theorem beBytes_u16FromBeBytes {bs : List UInt8} (h : bs.length = 2) :
    beBytes 2 (u16FromBeBytes bs).toNat = bs := by
  have hlt := ofBeBytes_lt bs
  have hback := beBytes_ofBeBytes bs
  rw [h] at hlt hback
  rw [u16FromBeBytes, UInt16.toNat_ofNat_of_lt' hlt, hback]

theorem u32FromBeBytes_beBytes (x : UInt32) :
    u32FromBeBytes (beBytes 4 x.toNat) = x := by
  have hlt : x.toNat < 256 ^ 4 := x.toNat_lt
  rw [u32FromBeBytes, ofBeBytes_beBytes, Nat.mod_eq_of_lt hlt,
    UInt32.ofNat_toNat]

theorem u16FromBeBytes_beBytes (x : UInt16) :
    u16FromBeBytes (beBytes 2 x.toNat) = x := by
  have hlt : x.toNat < 256 ^ 2 := x.toNat_lt
  rw [u16FromBeBytes, ofBeBytes_beBytes, Nat.mod_eq_of_lt hlt,
    UInt16.ofNat_toNat]

theorem toList_u128ToBeBytes (value : BitVec 128) :
    (u128ToBeBytes value).toList = beBytes 16 value.toNat := by
  simp [u128ToBeBytes]

theorem toU128_fromU128 (value : BitVec 128) :
    (fromU128 value).toU128 = value := by
  have hbytes : (fromU128 value).beByteList = beBytes 16 value.toNat := by
    rw [beByteList_eq, ← toList_u128ToBeBytes, toList_vector16]
    simp only [fromU128]
    rw [beBytes_u32FromBeBytes rfl, beBytes_u16FromBeBytes rfl,
      beBytes_u16FromBeBytes rfl]
    rfl
  have hlt : value.toNat < 256 ^ 16 := value.isLt.trans_le (by decide)
  rw [toU128, hbytes, ofBeBytes_beBytes, Nat.mod_eq_of_lt hlt,
    BitVec.ofNat_toNat, BitVec.setWidth_eq]

theorem toNat_toU128 (c : Clsid) : c.toU128.toNat = ofBeBytes c.beByteList := by
  have hlt := ofBeBytes_lt c.beByteList
  rw [length_beByteList] at hlt
  rw [toU128, BitVec.toNat_ofNat,
    Nat.mod_eq_of_lt (hlt.trans_le (by decide))]

theorem beBytes_toU128 (c : Clsid) :
    beBytes 16 c.toU128.toNat = c.beByteList := by
  rw [toNat_toU128, ← length_beByteList c]
  exact beBytes_ofBeBytes c.beByteList

theorem fromU128_toU128 (c : Clsid) : fromU128 c.toU128 = c := by
  have hlist := toList_u128ToBeBytes c.toU128
  rw [beBytes_toU128, toList_vector16] at hlist
  simp only [beByteList, List.cons.injEq, and_true] at hlist
  obtain ⟨h0, h1, h2, h3, h4, h5, h6, h7, hdata4⟩ := hlist
  have hfields : fromU128 c.toU128 =
      { data1 := u32FromBeBytes (beBytes 4 c.data1.toNat)
        data2 := u16FromBeBytes (beBytes 2 c.data2.toNat)
        data3 := u16FromBeBytes (beBytes 2 c.data3.toNat)
        data4 := #v[c.data4[0], c.data4[1], c.data4[2], c.data4[3],
          c.data4[4], c.data4[5], c.data4[6], c.data4[7]] } := by
    simp only [fromU128, h0, h1, h2, h3, h4, h5, h6, h7, hdata4,
      ← beBytes_u32, ← beBytes_u16]
  have hvector : #v[c.data4[0], c.data4[1], c.data4[2], c.data4[3],
      c.data4[4], c.data4[5], c.data4[6], c.data4[7]] = c.data4 :=
    Vector.toList_inj.mp (toList_vector8 c.data4).symm
  rw [hfields, u32FromBeBytes_beBytes, u16FromBeBytes_beBytes,
    u16FromBeBytes_beBytes, hvector]

/-! ## Text in braces -/

/-- `{:0wX}` of an integer of `4 * w` bits. -/
def hex (w n : ℕ) : String :=
  String.ofList (hexChars w n)

/-- `Display for Clsid`. -/
def display (self : Clsid) : String :=
  "\x7b" ++ hex 8 self.data1.toNat ++ "-" ++ hex 4 self.data2.toNat ++ "-" ++
    hex 4 self.data3.toNat ++ "-" ++ hex 2 self.data4[0].toNat ++
    hex 2 self.data4[1].toNat ++ "-" ++ hex 2 self.data4[2].toNat ++
    hex 2 self.data4[3].toNat ++ hex 2 self.data4[4].toNat ++
    hex 2 self.data4[5].toNat ++ hex 2 self.data4[6].toNat ++
    hex 2 self.data4[7].toNat ++ "\x7d"

@[simp] theorem toList_hex (w n : ℕ) : (hex w n).toList = hexChars w n :=
  String.toList_ofList

/-- The text between the braces. -/
def dashed (c : Clsid) : List Char :=
  hexChars 8 c.data1.toNat ++ '-' :: hexChars 4 c.data2.toNat ++
    '-' :: hexChars 4 c.data3.toNat ++
    '-' :: (c.data4.toList.take 2).flatMap (fun u => hexChars 2 u.toNat) ++
    '-' :: (c.data4.toList.drop 2).flatMap (fun u => hexChars 2 u.toNat)

theorem toList_display (c : Clsid) :
    c.display.toList = '\x7b' :: c.dashed ++ ['\x7d'] := by
  have hopen : "\x7b".toList = ['\x7b'] := by decide
  have hclose : "\x7d".toList = ['\x7d'] := by decide
  have hhyphen : "-".toList = ['-'] := by decide
  unfold dashed display
  rw [toList_vector8 c.data4]
  simp only [String.toList_append, toList_hex, hopen, hclose, hhyphen]
  simp only [List.take_succ_cons, List.take_zero, List.drop_succ_cons,
    List.drop_zero, List.flatMap_cons, List.flatMap_nil]
  simp only [List.append_assoc, List.append_nil, List.cons_append,
    List.nil_append]

theorem length_display (c : Clsid) : c.display.toList.length = 38 := by
  rw [toList_display, dashed, toList_vector8]
  simp

/-- Every character between the braces has what the digits and hyphens have. -/
theorem forall_mem_dashed {P : Char → Prop} (hdigit : ∀ d < 16, P (hexDigit d))
    (hhyphen : P '-') (c : Clsid) : ∀ ch ∈ c.dashed, P ch := by
  have hhex : ∀ w n, ∀ ch ∈ hexChars w n, P ch := fun _ _ =>
    forall_mem_hexChars hdigit
  have hbytes : ∀ bs : List UInt8,
      ∀ ch ∈ bs.flatMap (fun u => hexChars 2 u.toNat), P ch := fun bs => by
    rw [flatMap_hexChars]
    exact hhex _ _
  rw [dashed]
  simp only [List.cons_append, List.append_assoc, List.mem_cons,
    List.mem_append]
  rintro ch (h | rfl | h | rfl | h | rfl | h | rfl | h)
  · exact hhex _ _ ch h
  · exact hhyphen
  · exact hhex _ _ ch h
  · exact hhyphen
  · exact hhex _ _ ch h
  · exact hhyphen
  · exact hbytes _ ch h
  · exact hhyphen
  · exact hbytes _ ch h

/-- The same of the whole text. -/
theorem forall_mem_display {P : Char → Prop} (hdigit : ∀ d < 16, P (hexDigit d))
    (hopen : P '\x7b') (hclose : P '\x7d') (hhyphen : P '-') (c : Clsid) :
    ∀ ch ∈ c.display.toList, P ch := by
  rw [toList_display]
  simp only [List.cons_append, List.mem_cons, List.mem_append,
    List.not_mem_nil, or_false]
  rintro ch (rfl | h | rfl)
  · exact hopen
  · exact forall_mem_dashed hdigit hhyphen c ch h
  · exact hclose

/-- The digits of a field are those of its bytes. -/
theorem flatMap_hexChars_beBytes {w n : ℕ} (h : n < 256 ^ w) :
    (beBytes w n).flatMap (fun u => hexChars 2 u.toNat) =
      hexChars (w * 2) n := by
  rw [flatMap_hexChars, length_beBytes, ofBeBytes_beBytes, Nat.mod_eq_of_lt h]

/-- The digits of the text are those of the integer. -/
theorem hexChars_toU128 (c : Clsid) :
    hexChars 32 c.toU128.toNat =
      hexChars 8 c.data1.toNat ++ hexChars 4 c.data2.toNat ++
        hexChars 4 c.data3.toNat ++
        c.data4.toList.flatMap fun u => hexChars 2 u.toNat := by
  have hdata1 : c.data1.toNat < 256 ^ 4 := c.data1.toNat_lt
  have hdata2 : c.data2.toNat < 256 ^ 2 := c.data2.toNat_lt
  have hdata3 : c.data3.toNat < 256 ^ 2 := c.data3.toNat_lt
  have hbytes := flatMap_hexChars c.beByteList
  rw [length_beByteList, ← toNat_toU128, beByteList_eq] at hbytes
  rw [← hbytes, List.flatMap_append, List.flatMap_append, List.flatMap_append,
    flatMap_hexChars_beBytes hdata1, flatMap_hexChars_beBytes hdata2,
    flatMap_hexChars_beBytes hdata3]

/-- Whether a character is neither a brace nor a hyphen. -/
def notSeparator (ch : Char) : Bool :=
  ch != '\x7b' && ch != '\x7d' && ch != '-'

theorem filter_hexChars (w n : ℕ) :
    (hexChars w n).filter notSeparator = hexChars w n :=
  List.filter_eq_self.mpr (forall_mem_hexChars (by decide))

/-- Without its braces and hyphens the text is the hexadecimal of the
integer. -/
theorem filter_display (c : Clsid) :
    c.display.toList.filter notSeparator = hexChars 32 c.toU128.toNat := by
  have hsep : notSeparator '-' = false ∧ notSeparator '\x7b' = false ∧
      notSeparator '\x7d' = false := by decide
  have hbytes : ∀ bs : List UInt8,
      (bs.flatMap fun u => hexChars 2 u.toNat).filter notSeparator =
        bs.flatMap fun u => hexChars 2 u.toNat := fun bs => by
    rw [flatMap_hexChars, filter_hexChars]
  rw [toList_display, dashed, hexChars_toU128]
  simp only [List.filter_append, List.filter_cons, List.filter_nil, hsep,
    filter_hexChars, hbytes, List.cons_append, List.append_assoc,
    List.append_nil, Bool.false_eq_true, if_false]
  rw [← List.flatMap_append, List.take_append_drop]

theorem toU128_injective : Function.Injective toU128 :=
  Function.LeftInverse.injective fromU128_toU128

/-- The digits determine the identifier. -/
theorem hexChars_toU128_injective :
    Function.Injective fun c : Clsid => hexChars 32 c.toU128.toNat := by
  intro c c' h
  have hlt : ∀ value : BitVec 128, value.toNat < 16 ^ 32 := fun value =>
    value.isLt.trans_le (by decide)
  exact toU128_injective
    (BitVec.eq_of_toNat_eq (hexChars_injective (hlt _) (hlt _) h))

/-- The text determines the identifier. -/
theorem display_injective : Function.Injective display := by
  intro c c' h
  have hdigits := congrArg (fun s : String => s.toList.filter notSeparator) h
  simp only [filter_display] at hdigits
  exact hexChars_toU128_injective hdigits

end TympanApo.Clsid
