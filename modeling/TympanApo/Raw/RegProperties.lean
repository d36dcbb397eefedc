import TympanApo.Support.Utf16

/-!
# Text fields of the registration properties

`encode_wide_z` of `raw/reg_properties.rs` fills a fixed array of UTF-16 code
units.  Its documentation says that a surrogate pair at the end of the array
is dropped as a whole; the body counts code units.
-/

namespace TympanApo.RegProperties

open TympanApo.Support

/-! ## The buffer -/

/-- The loop of `encode_wide_z`: `out[idx] = u` for each unit in turn. -/
def writeUnits {N : ℕ} : List UInt16 → ℕ → Vector UInt16 N → Vector UInt16 N
  | [], _, out => out
  | u :: units, idx, out => writeUnits units (idx + 1) (out.setIfInBounds idx u)

/-- `encode_wide_z::<N>`. -/
def encodeWideZ (N : ℕ) (s : String) : Vector UInt16 N :=
  let limit := N - 1
  writeUnits ((Utf16.encode s.toList).take limit) 0 (Vector.replicate N 0)

/-- The units a reader takes from a zero-terminated buffer. -/
def readZ {N : ℕ} (buf : Vector UInt16 N) : List UInt16 :=
  buf.toList.takeWhile (· != 0)

theorem toList_writeUnits {N : ℕ} (units done : List UInt16)
    (out : Vector UInt16 N)
    (hout : out.toList = done ++ List.replicate (N - done.length) 0)
    (hfits : done.length + units.length ≤ N) :
    (writeUnits units done.length out).toList =
      done ++ units ++ List.replicate (N - done.length - units.length) 0 := by
  induction units generalizing done out with
  | nil => simpa [writeUnits] using hout
  | cons u units ih =>
      rw [List.length_cons] at hfits
      have hlen : (done ++ [u]).length = done.length + 1 := by simp
      have hset : (out.setIfInBounds done.length u).toList =
          (done ++ [u]) ++ List.replicate (N - (done ++ [u]).length) 0 := by
        obtain ⟨k, hk⟩ : ∃ k, N - done.length = k + 1 :=
          ⟨N - done.length - 1, by omega⟩
        rw [Vector.toList_setIfInBounds, hout, hk, hlen,
          show N - (done.length + 1) = k by omega, List.replicate_succ,
          List.set_append_right _ _ le_rfl, Nat.sub_self, List.set_cons_zero,
          List.append_assoc]
        rfl
      have hrest := ih (done ++ [u]) (out.setIfInBounds done.length u) hset
        (by omega)
      rw [hlen] at hrest
      rw [writeUnits, hrest, List.append_assoc, List.length_cons,
        show N - (done.length + 1) - units.length =
          N - done.length - (units.length + 1) by omega]
      simp

/-- The buffer holds the units that fit, and zeros. -/
theorem toList_encodeWideZ (N : ℕ) (s : String) :
    (encodeWideZ N s).toList =
      (Utf16.encode s.toList).take (N - 1) ++
        List.replicate (N - ((Utf16.encode s.toList).take (N - 1)).length)
          0 := by
  have hcut : ([] : List UInt16).length +
      ((Utf16.encode s.toList).take (N - 1)).length ≤ N := by
    rw [List.length_nil, Nat.zero_add]
    exact (List.length_take_le _ _).trans (Nat.sub_le N 1)
  have hwritten := toList_writeUnits _ [] (Vector.replicate N 0) (by simp) hcut
  simpa [encodeWideZ] using hwritten

/-- A reader sees the units that fit, up to their first zero. -/
theorem readZ_encodeWideZ (N : ℕ) (s : String) :
    readZ (encodeWideZ N s) =
      ((Utf16.encode s.toList).take (N - 1)).takeWhile (· != 0) := by
  rw [readZ, toList_encodeWideZ, List.takeWhile_append]
  split
  next hall =>
    have hzeros : ∀ k : ℕ,
        (List.replicate k (0 : UInt16)).takeWhile (· != 0) = [] := by
      intro k
      cases k <;> rfl
    have hself := (List.takeWhile_prefix (l :=
      (Utf16.encode s.toList).take (N - 1)) (· != 0)).eq_of_length hall
    rw [hzeros, List.append_nil, hself]
  next => rfl

theorem getElem_encodeWideZ_last (N : ℕ) (s : String) (h : 0 < N) :
    (encodeWideZ N s)[N - 1] = 0 := by
  have hcut : ((Utf16.encode s.toList).take (N - 1)).length ≤ N - 1 :=
    List.length_take_le _ _
  have hlast : (encodeWideZ N s).toList[N - 1]? = some 0 := by
    rw [toList_encodeWideZ, List.getElem?_append_right hcut,
      List.getElem?_replicate, if_pos (by omega)]
  rw [Vector.getElem?_toList, Vector.getElem?_eq_getElem (by omega),
    Option.some.injEq] at hlast
  exact hlast

/-! ## What the buffer says -/

/-- The text is cut inside a surrogate pair, with no zero before it. -/
def Straddles (N : ℕ) (s : String) : Prop :=
  ∃ whole c rest, s.toList = whole ++ c :: rest ∧
    Utf16.IsSupplementary c ∧ (Utf16.encode whole).length + 1 = N - 1 ∧
    ∀ d ∈ whole, d.toNat ≠ 0

theorem takeWhile_eq_self {cs : List Char} (h : ∀ c ∈ cs, c.toNat ≠ 0) :
    cs.takeWhile (fun c => c.toNat != 0) = cs := by
  rw [List.takeWhile_eq_self_iff]
  intro c hc
  simpa using h c hc

/-- Unless the text straddles, the buffer holds whole characters of it. -/
theorem readZ_of_not_straddles {N : ℕ} {s : String} (h : ¬ Straddles N s) :
    ∃ cs, cs <+: s.toList ∧ readZ (encodeWideZ N s) = Utf16.encode cs := by
  rw [readZ_encodeWideZ]
  rcases Utf16.take_encode s.toList (N - 1) with
    ⟨whole, hwhole, htake⟩ | ⟨whole, c, rest, hsplit, hc, hlen, htake⟩
  · rw [htake, Utf16.takeWhile_encode]
    exact ⟨_, (List.takeWhile_prefix _).trans hwhole, rfl⟩
  · rw [htake, List.takeWhile_append, Utf16.takeWhile_encode]
    split
    next hall =>
      have hsame := Utf16.encode_injective
        ((Utf16.takeWhile_encode whole ▸
          List.takeWhile_prefix (· != 0)).eq_of_length hall)
      have hnonzero : ∀ d ∈ whole, d.toNat ≠ 0 := by
        intro d hd
        have hall := List.takeWhile_eq_self_iff.mp hsame d hd
        simpa using hall
      exact absurd ⟨whole, c, rest, hsplit, hc, hlen, hnonzero⟩ h
    next =>
      have hwhole : whole <+: s.toList := ⟨c :: rest, hsplit.symm⟩
      exact ⟨_, (List.takeWhile_prefix _).trans hwhole, rfl⟩

/-- A text that straddles leaves a high surrogate at the end. -/
theorem decode_of_straddles {N : ℕ} {s : String} (h : Straddles N s) :
    Utf16.decode (readZ (encodeWideZ N s)) = none := by
  obtain ⟨whole, c, rest, hsplit, hc, hlen, hnonzero⟩ := h
  have htake : (Utf16.encode s.toList).take (N - 1) =
      Utf16.encode whole ++ [Utf16.highHalf c] := by
    rw [hsplit, Utf16.encode_append, Utf16.encode_cons,
      Utf16.encodeChar_of_supplementary hc, ← hlen,
      List.take_length_add_append]
    rfl
  have hwhole : (Utf16.encode whole).takeWhile (· != 0) =
      Utf16.encode whole := by
    rw [Utf16.takeWhile_encode, takeWhile_eq_self hnonzero]
  have hhigh : Utf16.highHalf c ≠ 0 :=
    Utf16.ne_zero_of_mem_encodeChar (c := c)
      (by have := hc; unfold Utf16.IsSupplementary at this; omega)
      (by rw [Utf16.encodeChar_of_supplementary hc]; exact List.mem_cons_self)
  have hread : readZ (encodeWideZ N s) =
      Utf16.encode whole ++ [Utf16.highHalf c] := by
    rw [readZ_encodeWideZ, htake, List.takeWhile_append, hwhole, if_pos rfl]
    simp [hhigh]
  rw [hread]
  exact Utf16.decode_encode_concat_high whole (Utf16.isHigh_highHalf hc)

/-- What a fixed text field owes its reader. -/
structure EncodesText (N : ℕ) (s : String) : Prop where
  /-- The units before the first zero are the encoding of a prefix. -/
  decodes : ∃ cs, Utf16.decode (readZ (encodeWideZ N s)) = some cs ∧
    cs <+: s.toList
  terminated : ∀ h : 0 < N, (encodeWideZ N s)[N - 1] = 0
  /-- A text without zeros that fits is there in full. -/
  complete : (∀ c ∈ s.toList, c.toNat ≠ 0) →
    (Utf16.encode s.toList).length ≤ N - 1 →
      Utf16.decode (readZ (encodeWideZ N s)) = some s.toList

/-- For every buffer size and every text, the buffer is a well-formed prefix
of the text if and only if the text is not cut inside a surrogate pair. -/
theorem encodesText_iff (N : ℕ) (s : String) :
    EncodesText N s ↔ ¬ Straddles N s := by
  constructor
  · intro hencodes hstraddles
    obtain ⟨cs, hdecode, -⟩ := hencodes.decodes
    rw [decode_of_straddles hstraddles] at hdecode
    cases hdecode
  · intro hwhole
    obtain ⟨cs, hprefix, hread⟩ := readZ_of_not_straddles hwhole
    refine ⟨⟨cs, ?_, hprefix⟩, getElem_encodeWideZ_last N s, ?_⟩
    · rw [hread, Utf16.decode_encode]
    · intro hnonzero hfits
      rw [readZ_encodeWideZ, List.take_of_length_le hfits,
        Utf16.takeWhile_encode, takeWhile_eq_self hnonzero,
        Utf16.decode_encode]

/-- The one-character text `😀` in a buffer of two units. -/
theorem not_encodesText_emoji :
    (encodeWideZ 2 (String.ofList [Char.ofNat 0x1F600])).toList =
        [0xD83D, 0] ∧
      ¬ EncodesText 2 (String.ofList [Char.ofNat 0x1F600]) := by
  constructor
  · rw [toList_encodeWideZ, String.toList_ofList]
    decide
  · intro hencodes
    obtain ⟨cs, hdecode, -⟩ := hencodes.decodes
    rw [readZ_encodeWideZ, String.toList_ofList] at hdecode
    cases hdecode

end TympanApo.RegProperties
