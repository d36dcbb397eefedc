import TympanApo.Apo

/-!
# Arithmetic of the suggested format

`Format::from_raw` multiplies in 16 and in 32 bits.  A build with overflow
checks panics where a product does not fit and a release build wraps.  The
default negotiation feeds it a channel count and a sample rate that come
unchecked from the host's wave block.
-/

namespace TympanApo

/-! ## Checked products -/

/-- `*` on `u16` in a build with overflow checks. -/
def mulU16 (a b : UInt16) : Option UInt16 :=
  if a.toNat * b.toNat < 2 ^ 16 then some (a * b) else none

/-- `*` on `u32` in a build with overflow checks. -/
def mulU32 (a b : UInt32) : Option UInt32 :=
  if a.toNat * b.toNat < 2 ^ 32 then some (a * b) else none

namespace Format

/-- `Format::from_raw` in a build with overflow checks; `none` is a panic. -/
def fromRawChecked (formatTag channels : UInt16) (samplesPerSec : UInt32)
    (bitsPerSample : UInt16) : Option Format :=
  match mulU16 channels (bitsPerSample / 8) with
  | none => none
  | some blockAlign =>
      match mulU32 samplesPerSec blockAlign.toUInt32 with
      | none => none
      | some avgBytesPerSec =>
          some
            { formatTag, channels, samplesPerSec, avgBytesPerSec, blockAlign,
              bitsPerSample
              validBitsPerSample := 0
              channelMask := 0
              extensible := false }

/-- `Format::pcm_float32` in a build with overflow checks. -/
def pcmFloat32Checked (sampleRate : UInt32) (channels : UInt16) :
    Option Format :=
  fromRawChecked waveFormatIeeeFloat channels sampleRate 32

end Format

/-- `default_float32_negotiation` in a build with overflow checks. -/
def defaultFloat32NegotiationChecked (format : Format) :
    Option FormatNegotiation :=
  if format.isFloat && format.bitsPerSample == 32 then
    some .accept
  else
    (Format.pcmFloat32Checked format.sampleRate format.channels).map .suggest

namespace Format

variable {formatTag channels bitsPerSample : UInt16} {samplesPerSec : UInt32}

/-- The products of `from_raw` are exact. -/
structure ProductsFit (channels : UInt16) (samplesPerSec : UInt32)
    (bitsPerSample : UInt16) : Prop where
  blockAlign : channels.toNat * (bitsPerSample / 8).toNat < 2 ^ 16
  avgBytesPerSec : samplesPerSec.toNat *
    (channels.toNat * (bitsPerSample / 8).toNat) < 2 ^ 32

theorem toNat_blockAlign
    (h : channels.toNat * (bitsPerSample / 8).toNat < 2 ^ 16) :
    (channels * (bitsPerSample / 8)).toNat =
      channels.toNat * (bitsPerSample / 8).toNat := by
  rw [UInt16.toNat_mul, Nat.mod_eq_of_lt h]

/-- A checked build completes where the products are exact, and there it does
what a release build does. -/
theorem fromRawChecked_of_productsFit
    (h : ProductsFit channels samplesPerSec bitsPerSample) :
    fromRawChecked formatTag channels samplesPerSec bitsPerSample =
      some (fromRaw formatTag channels samplesPerSec bitsPerSample) := by
  have hblock := toNat_blockAlign h.blockAlign
  have havg : samplesPerSec.toNat *
      (channels * (bitsPerSample / 8)).toUInt32.toNat < 2 ^ 32 := by
    rw [UInt16.toNat_toUInt32, hblock]
    exact h.avgBytesPerSec
  simp only [fromRawChecked, mulU16, mulU32, if_pos h.blockAlign, if_pos havg]
  rfl

/-- It panics where one of them is not. -/
theorem fromRawChecked_of_not_productsFit
    (h : ¬ ProductsFit channels samplesPerSec bitsPerSample) :
    fromRawChecked formatTag channels samplesPerSec bitsPerSample = none := by
  by_cases hblock : channels.toNat * (bitsPerSample / 8).toNat < 2 ^ 16
  · have havg : ¬ samplesPerSec.toNat *
        (channels * (bitsPerSample / 8)).toUInt32.toNat < 2 ^ 32 := by
      rw [UInt16.toNat_toUInt32, toNat_blockAlign hblock]
      exact fun havg => h ⟨hblock, havg⟩
    simp only [fromRawChecked, mulU16, mulU32, if_pos hblock, if_neg havg]
  · simp only [fromRawChecked, mulU16, if_neg hblock]

/-- Exact products give exact byte counts. -/
theorem fromRaw_exact (formatTag : UInt16)
    (h : ProductsFit channels samplesPerSec bitsPerSample) :
    (fromRaw formatTag channels samplesPerSec bitsPerSample).blockAlign.toNat =
        channels.toNat * (bitsPerSample / 8).toNat ∧
      (fromRaw formatTag channels samplesPerSec
        bitsPerSample).avgBytesPerSec.toNat =
          samplesPerSec.toNat *
            (channels.toNat * (bitsPerSample / 8).toNat) := by
  have hblock := toNat_blockAlign h.blockAlign
  refine ⟨hblock, ?_⟩
  simp only [fromRaw]
  rw [UInt32.toNat_mul, UInt16.toNat_toUInt32, hblock,
    Nat.mod_eq_of_lt h.avgBytesPerSec]

end Format

/-! ## The default negotiation -/

/-- The negotiation of `f` completes in a build with overflow checks, and a
suggestion carries exact byte counts. -/
structure NegotiatesExactly (f : Format) : Prop where
  completes : (defaultFloat32NegotiationChecked f).isSome = true
  suggests : ∀ alt, defaultFloat32Negotiation f = .suggest alt →
    alt.blockAlign.toNat = 4 * alt.channels.toNat ∧
      alt.avgBytesPerSec.toNat =
        alt.sampleRate.toNat * (4 * alt.channels.toNat)

/-- The format is accepted, or four bytes a channel fit into 16 bits and a
second of such frames fits into 32. -/
def SuggestionFits (f : Format) : Prop :=
  (f.isFloat = true ∧ f.bitsPerSample = 32) ∨
    (4 * f.channels.toNat < 2 ^ 16 ∧
      f.sampleRate.toNat * (4 * f.channels.toNat) < 2 ^ 32)

theorem productsFit_float32_iff (channels : UInt16) (sampleRate : UInt32) :
    Format.ProductsFit channels sampleRate 32 ↔
      4 * channels.toNat < 2 ^ 16 ∧
        sampleRate.toNat * (4 * channels.toNat) < 2 ^ 32 := by
  have hbytes : channels.toNat * ((32 : UInt16) / 8).toNat =
      4 * channels.toNat := Nat.mul_comm _ _
  constructor
  · rintro ⟨hblock, havg⟩
    rw [hbytes] at hblock havg
    exact ⟨hblock, havg⟩
  · rintro ⟨hblock, havg⟩
    constructor
    · rw [hbytes]
      exact hblock
    · rw [hbytes]
      exact havg

theorem negotiatesExactly_of_accepted {f : Format} (hfloat : f.isFloat = true)
    (hbits : f.bitsPerSample = 32) : NegotiatesExactly f where
  completes := by simp [defaultFloat32NegotiationChecked, hfloat, hbits]
  suggests := by simp [defaultFloat32Negotiation, hfloat, hbits]

/-- A format that is not accepted leads to a suggestion. -/
theorem negotiation_of_not_accepted {f : Format}
    (h : ¬ (f.isFloat = true ∧ f.bitsPerSample = 32)) :
    defaultFloat32Negotiation f =
        .suggest (Format.pcmFloat32 f.sampleRate f.channels) ∧
      defaultFloat32NegotiationChecked f =
        (Format.pcmFloat32Checked f.sampleRate f.channels).map .suggest := by
  have hgate : ¬ (f.isFloat && f.bitsPerSample == 32) = true := by
    simpa using h
  exact ⟨if_neg hgate, if_neg hgate⟩

/-- For every wave block, the default negotiation of the decoded format is
exact if and only if the suggestion fits. -/
theorem negotiatesExactly_iff (wf : WaveFormatExtensible) :
    NegotiatesExactly (Format.fromWaveformatexPtr wf) ↔
      SuggestionFits (Format.fromWaveformatexPtr wf) := by
  generalize Format.fromWaveformatexPtr wf = f
  unfold SuggestionFits
  rw [← productsFit_float32_iff]
  by_cases haccepted : f.isFloat = true ∧ f.bitsPerSample = 32
  · exact ⟨fun _ => .inl haccepted,
      fun _ => negotiatesExactly_of_accepted haccepted.1 haccepted.2⟩
  · obtain ⟨hwrapping, hchecked⟩ := negotiation_of_not_accepted haccepted
    rw [or_iff_right haccepted]
    constructor
    · intro hexact
      have hcompletes := hexact.completes
      by_contra hfits
      rw [hchecked, Format.pcmFloat32Checked,
        Format.fromRawChecked_of_not_productsFit hfits] at hcompletes
      cases hcompletes
    · intro hfits
      constructor
      · rw [hchecked, Format.pcmFloat32Checked,
          Format.fromRawChecked_of_productsFit hfits]
        rfl
      · intro alt halt
        rw [hwrapping, FormatNegotiation.suggest.injEq] at halt
        subst halt
        obtain ⟨hblock, havg⟩ :=
          Format.fromRaw_exact waveFormatIeeeFloat hfits
        exact ⟨hblock.trans (Nat.mul_comm _ _),
          havg.trans (congrArg _ (Nat.mul_comm _ _))⟩

/-- A 16-bit integer block of 16384 channels at 48 kHz. -/
def manyChannelBlock : WaveFormatExtensible where
  format :=
    { wFormatTag := waveFormatPcm
      nChannels := 16384
      nSamplesPerSec := 48000
      nAvgBytesPerSec := 1572864000
      nBlockAlign := 32768
      wBitsPerSample := 16
      cbSize := 0 }
  wValidBitsPerSample := 0
  dwChannelMask := 0
  subFormat :=
    { data1 := 0, data2 := 0, data3 := 0, data4 := Vector.replicate 8 0 }

/-- A build with overflow checks panics on that block, and a release build
suggests a format with `block_align` zero. -/
theorem not_negotiatesExactly_manyChannels :
    defaultFloat32NegotiationChecked
        (Format.fromWaveformatexPtr manyChannelBlock) = none ∧
      (Format.pcmFloat32 48000 16384).blockAlign = 0 ∧
      defaultFloat32Negotiation
          (Format.fromWaveformatexPtr manyChannelBlock) =
        .suggest (Format.pcmFloat32 48000 16384) ∧
      ¬ NegotiatesExactly (Format.fromWaveformatexPtr manyChannelBlock) := by
  refine ⟨by decide, by decide, by decide, ?_⟩
  intro hexact
  exact absurd hexact.completes (by decide)

end TympanApo
