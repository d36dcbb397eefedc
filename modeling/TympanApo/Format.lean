import TympanApo.Clsid
import Mathlib.Data.Nat.Notation

/-!
# Stream formats

`Format` and its conversions to and from the wave blocks of the Windows
bindings, from `format.rs`.  Products are taken modulo the field width, as in
a release build.
-/

namespace TympanApo

def waveFormatPcm : UInt16 := 0x0001

def waveFormatIeeeFloat : UInt16 := 0x0003

def waveFormatExtensible : UInt16 := 0xFFFE

/-- PCM audio stream format. -/
structure Format where
  formatTag : UInt16
  channels : UInt16
  samplesPerSec : UInt32
  avgBytesPerSec : UInt32
  blockAlign : UInt16
  bitsPerSample : UInt16
  validBitsPerSample : UInt16
  channelMask : UInt32
  extensible : Bool
  deriving DecidableEq, Repr

/-- `default_channel_mask`. -/
def defaultChannelMask (channels : UInt16) : UInt32 :=
  let speakerFrontLeft : UInt32 := 0x1
  let speakerFrontRight : UInt32 := 0x2
  let speakerFrontCenter : UInt32 := 0x4
  let speakerLowFrequency : UInt32 := 0x8
  let speakerBackLeft : UInt32 := 0x10
  let speakerBackRight : UInt32 := 0x20
  let speakerSideLeft : UInt32 := 0x200
  let speakerSideRight : UInt32 := 0x400
  if channels = 1 then speakerFrontCenter
  else if channels = 2 then speakerFrontLeft ||| speakerFrontRight
  else if channels = 6 then
    speakerFrontLeft ||| speakerFrontRight ||| speakerFrontCenter |||
      speakerLowFrequency ||| speakerBackLeft ||| speakerBackRight
  else if channels = 8 then
    speakerFrontLeft ||| speakerFrontRight ||| speakerFrontCenter |||
      speakerLowFrequency ||| speakerBackLeft ||| speakerBackRight |||
      speakerSideLeft ||| speakerSideRight
  else 0

namespace Format

/-! ## Constructors and builders -/

/-- `Format::from_raw`. -/
def fromRaw (formatTag channels : UInt16) (samplesPerSec : UInt32)
    (bitsPerSample : UInt16) : Format :=
  let blockAlign := channels * (bitsPerSample / 8)
  let avgBytesPerSec := samplesPerSec * blockAlign.toUInt32
  { formatTag, channels, samplesPerSec, avgBytesPerSec, blockAlign,
    bitsPerSample
    validBitsPerSample := 0
    channelMask := 0
    extensible := false }

def pcmInt16 (sampleRate : UInt32) (channels : UInt16) : Format :=
  fromRaw waveFormatPcm channels sampleRate 16

def pcmInt24 (sampleRate : UInt32) (channels : UInt16) : Format :=
  fromRaw waveFormatPcm channels sampleRate 24

def pcmInt32 (sampleRate : UInt32) (channels : UInt16) : Format :=
  fromRaw waveFormatPcm channels sampleRate 32

def pcmFloat32 (sampleRate : UInt32) (channels : UInt16) : Format :=
  fromRaw waveFormatIeeeFloat channels sampleRate 32

def pcmFloat64 (sampleRate : UInt32) (channels : UInt16) : Format :=
  fromRaw waveFormatIeeeFloat channels sampleRate 64

/-- `Format::with_extensible`. -/
def withExtensible (self : Format) : Format :=
  { self with
    extensible := true
    channelMask :=
      if self.channelMask = 0 then defaultChannelMask self.channels
      else self.channelMask
    validBitsPerSample :=
      if self.validBitsPerSample = 0 then self.bitsPerSample
      else self.validBitsPerSample }

/-- `Format::with_channel_mask`. -/
def withChannelMask (self : Format) (mask : UInt32) : Format :=
  { self with channelMask := mask }

/-- `Format::with_valid_bits_per_sample`. -/
def withValidBitsPerSample (self : Format) (bits : UInt16) : Format :=
  { self with validBitsPerSample := bits }

/-! ## Accessors -/

/-- `Format::sample_rate`. -/
def sampleRate (self : Format) : UInt32 :=
  self.samplesPerSec

/-- `Format::is_float`. -/
def isFloat (self : Format) : Bool :=
  self.formatTag == waveFormatIeeeFloat

/-- `Format::is_int_pcm`. -/
def isIntPcm (self : Format) : Bool :=
  self.formatTag == waveFormatPcm

end Format

/-! ## Wave blocks -/

/-- `WAVEFORMATEX`. -/
structure WaveFormatEx where
  wFormatTag : UInt16
  nChannels : UInt16
  nSamplesPerSec : UInt32
  nAvgBytesPerSec : UInt32
  nBlockAlign : UInt16
  wBitsPerSample : UInt16
  cbSize : UInt16
  deriving DecidableEq, Repr

/-- `WAVEFORMATEXTENSIBLE`: a `WAVEFORMATEX` prefix and the extension that
follows it in memory. -/
structure WaveFormatExtensible where
  format : WaveFormatEx
  wValidBitsPerSample : UInt16
  dwChannelMask : UInt32
  subFormat : Guid
  deriving DecidableEq, Repr

def ksdataformatSubtypePcm : Guid where
  data1 := 0x00000001
  data2 := 0x0000
  data3 := 0x0010
  data4 := #v[0x80, 0x00, 0x00, 0xaa, 0x00, 0x38, 0x9b, 0x71]

def ksdataformatSubtypeIeeeFloat : Guid where
  data1 := 0x00000003
  data2 := 0x0000
  data3 := 0x0010
  data4 := #v[0x80, 0x00, 0x00, 0xaa, 0x00, 0x38, 0x9b, 0x71]

namespace Format

/-- `Format::from_waveformatex`. -/
def fromWaveformatex (wf : WaveFormatEx) : Format where
  formatTag := wf.wFormatTag
  channels := wf.nChannels
  samplesPerSec := wf.nSamplesPerSec
  avgBytesPerSec := wf.nAvgBytesPerSec
  blockAlign := wf.nBlockAlign
  bitsPerSample := wf.wBitsPerSample
  validBitsPerSample := 0
  channelMask := 0
  extensible := false

/-- `Format::to_waveformatex`. -/
def toWaveformatex (self : Format) : WaveFormatEx where
  wFormatTag := if self.extensible then waveFormatExtensible else self.formatTag
  nChannels := self.channels
  nSamplesPerSec := self.samplesPerSec
  nAvgBytesPerSec := self.avgBytesPerSec
  nBlockAlign := self.blockAlign
  wBitsPerSample := self.bitsPerSample
  cbSize := if self.extensible then 22 else 0

/-- `Format::from_waveformatextensible`. -/
def fromWaveformatextensible (wfx : WaveFormatExtensible) : Format where
  formatTag :=
    if wfx.subFormat = ksdataformatSubtypeIeeeFloat then waveFormatIeeeFloat
    else waveFormatPcm
  channels := wfx.format.nChannels
  samplesPerSec := wfx.format.nSamplesPerSec
  avgBytesPerSec := wfx.format.nAvgBytesPerSec
  blockAlign := wfx.format.nBlockAlign
  bitsPerSample := wfx.format.wBitsPerSample
  validBitsPerSample := wfx.wValidBitsPerSample
  channelMask := wfx.dwChannelMask
  extensible := true

/-- `Format::sub_format_guid`. -/
def subFormatGuid (self : Format) : Guid :=
  if self.isIntPcm then ksdataformatSubtypePcm
  else ksdataformatSubtypeIeeeFloat

/-- `Format::to_waveformatextensible`. -/
def toWaveformatextensible (self : Format) : WaveFormatExtensible where
  format :=
    { wFormatTag := waveFormatExtensible
      nChannels := self.channels
      nSamplesPerSec := self.samplesPerSec
      nAvgBytesPerSec := self.avgBytesPerSec
      nBlockAlign := self.blockAlign
      wBitsPerSample := self.bitsPerSample
      cbSize := 22 }
  wValidBitsPerSample :=
    if self.validBitsPerSample = 0 then self.bitsPerSample
    else self.validBitsPerSample
  dwChannelMask := self.channelMask
  subFormat := self.subFormatGuid

/-- `Format::from_waveformatex_ptr`.  `wf` is the memory behind the pointer;
what follows the `WAVEFORMATEX` prefix is read only when the prefix announces
an extension. -/
def fromWaveformatexPtr (wf : WaveFormatExtensible) : Format :=
  if 22 ≤ wf.format.cbSize ∧ wf.format.wFormatTag = waveFormatExtensible then
    fromWaveformatextensible wf
  else
    fromWaveformatex wf.format

end Format

/-- Outcome of a format negotiation. -/
inductive FormatNegotiation
  | accept
  | suggest (alternative : Format)
  | reject
  deriving DecidableEq, Repr

/-! ## What decoding and encoding keep -/

namespace Format

theorem fromWaveformatexPtr_toWaveformatextensible (f : Format) :
    fromWaveformatexPtr f.toWaveformatextensible =
      fromWaveformatextensible f.toWaveformatextensible := by
  rw [fromWaveformatexPtr, if_pos ⟨(by decide : (22 : UInt16) ≤ 22), rfl⟩]

theorem fromWaveformatexPtr_of_cbSize_zero {wf : WaveFormatExtensible}
    (h : wf.format.cbSize = 0) :
    fromWaveformatexPtr wf = fromWaveformatex wf.format := by
  rw [fromWaveformatexPtr, if_neg]
  rintro ⟨hsize, -⟩
  rw [h] at hsize
  exact absurd hsize (by decide)

theorem subtype_ieeeFloat_ne_pcm :
    ksdataformatSubtypePcm ≠ ksdataformatSubtypeIeeeFloat := by
  decide

/-- An extensible encoding decodes to the classification its sub-format
carries. -/
theorem formatTag_fromWaveformatextensible_toWaveformatextensible
    (f : Format) :
    (fromWaveformatextensible f.toWaveformatextensible).formatTag =
      if f.isIntPcm then waveFormatPcm else waveFormatIeeeFloat := by
  simp only [fromWaveformatextensible, toWaveformatextensible, subFormatGuid]
  by_cases hpcm : f.isIntPcm
  · simp [hpcm, subtype_ieeeFloat_ne_pcm]
  · simp [hpcm]

/-- An extensible encoding keeps the integer or float classification of the
two known tags, and of no other: the encoder falls back to the float
sub-format. -/
theorem isFloat_fromWaveformatextensible_iff (f : Format) :
    (fromWaveformatextensible f.toWaveformatextensible).isFloat = f.isFloat ↔
      f.formatTag = waveFormatPcm ∨ f.formatTag = waveFormatIeeeFloat := by
  have htag := formatTag_fromWaveformatextensible_toWaveformatextensible f
  by_cases hpcm : f.formatTag = waveFormatPcm
  · have hint : f.isIntPcm = true := by simp [isIntPcm, hpcm]
    rw [hint, if_pos rfl] at htag
    simp [isFloat, htag, hpcm]
  · have hint : ¬ f.isIntPcm = true := by simp [isIntPcm, hpcm]
    rw [if_neg hint] at htag
    rw [or_iff_right hpcm, isFloat, isFloat, htag, beq_self_eq_true, eq_comm]
    exact beq_iff_eq

/-- A 16-bit format with the tag of MPEG layer 3 comes back as float. -/
theorem isFloat_mp3_not_kept :
    let f := (fromRaw 0x0055 2 48000 16).withExtensible
    f.extensible = true ∧ f.isFloat = false ∧
      (fromWaveformatextensible f.toWaveformatextensible).isFloat = true := by
  decide

end Format

end TympanApo
