import TympanApo.Instance

/-!
# The media type bridge

`raw/media_type.rs`: the `IAudioMediaType` carrier, the conversions between a
`Format` and a media type, and format negotiation.  A media type is seen only
through `GetAudioFormat`, so it is modelled by what that call points to.
-/

namespace TympanApo

/-- `IAudioMediaType`; `none` is a null `GetAudioFormat`. -/
structure MediaType where
  getAudioFormat : Option WaveFormatExtensible
  deriving DecidableEq, Repr

/-- `FormatMediaType`. -/
structure FormatMediaType where
  wfx : WaveFormatExtensible
  deriving DecidableEq, Repr

/-- `FormatMediaType::new`. -/
def FormatMediaType.new (format : Format) : FormatMediaType :=
  if format.extensible then
    { wfx := format.toWaveformatextensible }
  else
    -- The extension of the zeroed block stays zero.
    { wfx :=
        { format := format.toWaveformatex
          wValidBitsPerSample := 0
          dwChannelMask := 0
          subFormat :=
            { data1 := 0, data2 := 0, data3 := 0
              data4 := Vector.replicate 8 0 } } }

/-- `media_type_from_format`. -/
def mediaTypeFromFormat (format : Format) : MediaType where
  getAudioFormat := some (FormatMediaType.new format).wfx

/-- `format_from_media_type`. -/
def formatFromMediaType (media : Option MediaType) : Except ComError Format :=
  match media with
  | none => .error
      { code := HResult.ePointer
        message := "IAudioMediaType reference was null" }
  | some mt =>
      match mt.getAudioFormat with
      | none => .error
          { code := HResult.apoerrFormatNotSupported
            message := "IAudioMediaType::GetAudioFormat returned null" }
      | some wf => .ok (Format.fromWaveformatexPtr wf)

/-- `NegotiationDirection`. -/
inductive NegotiationDirection
  | input
  | output
  deriving DecidableEq, Repr

variable {σ : Type*}

/-- The hook `negotiate_format` consults in a direction. -/
def formatDecision (T : ProcessingObject σ) (self : ApoInstance σ)
    (direction : NegotiationDirection) (format : Format) :
    Effect σ FormatNegotiation :=
  match direction with
  | .input => self.isInputFormatSupported T format
  | .output => self.isOutputFormatSupported T format

/-- `negotiate_format`. -/
def negotiateFormat (T : ProcessingObject σ) (self : ApoInstance σ)
    (requested : Option MediaType) (direction : NegotiationDirection) :
    Effect σ (Except ComError MediaType) :=
  match formatFromMediaType requested with
  | .error e => { answer := .error e, inst := self, hooks := [] }
  | .ok requestedFormat =>
      (formatDecision T self direction requestedFormat).map fun
        | .accept => .ok (mediaTypeFromFormat requestedFormat)
        | .suggest alt => .ok (mediaTypeFromFormat alt)
        | .reject => .error
            { code := HResult.apoerrFormatNotSupported
              message :=
                "ProcessingObject rejected the requested format with no alternative" }

/-! ## The form of a format that survives the bridge -/

namespace Format

/-- What is left of a format after a trip through a media type. -/
def wireForm (f : Format) : Format :=
  if f.extensible then
    { f with
      formatTag := if f.isIntPcm then waveFormatPcm else waveFormatIeeeFloat
      validBitsPerSample :=
        if f.validBitsPerSample = 0 then f.bitsPerSample
        else f.validBitsPerSample }
  else
    { f with validBitsPerSample := 0, channelMask := 0 }

theorem wireForm_of_extensible {f : Format} (h : f.extensible = true) :
    f.wireForm =
      { f with
        formatTag := if f.isIntPcm then waveFormatPcm else waveFormatIeeeFloat
        validBitsPerSample :=
          if f.validBitsPerSample = 0 then f.bitsPerSample
          else f.validBitsPerSample } :=
  if_pos h

theorem wireForm_of_base {f : Format} (h : f.extensible = false) :
    f.wireForm = { f with validBitsPerSample := 0, channelMask := 0 } := by
  rw [wireForm, h]
  rfl

theorem fromWaveformatex_toWaveformatex {f : Format}
    (h : f.extensible = false) :
    fromWaveformatex f.toWaveformatex = f.wireForm := by
  simp [fromWaveformatex, toWaveformatex, wireForm_of_base h, h]

theorem fromWaveformatextensible_toWaveformatextensible {f : Format}
    (h : f.extensible = true) :
    fromWaveformatextensible f.toWaveformatextensible = f.wireForm := by
  have htag := formatTag_fromWaveformatextensible_toWaveformatextensible f
  rw [wireForm_of_extensible h, ← htag]
  simp [fromWaveformatextensible, toWaveformatextensible, h]

end Format

/-- Decoding what was encoded gives the wire form. -/
theorem fromWaveformatexPtr_new (f : Format) :
    Format.fromWaveformatexPtr (FormatMediaType.new f).wfx = f.wireForm := by
  by_cases h : f.extensible = true
  · rw [FormatMediaType.new, if_pos h]
    exact (Format.fromWaveformatexPtr_toWaveformatextensible f).trans
      (Format.fromWaveformatextensible_toWaveformatextensible h)
  · have hbase : f.extensible = false := by simpa using h
    rw [FormatMediaType.new, if_neg h,
      Format.fromWaveformatexPtr_of_cbSize_zero]
    · exact Format.fromWaveformatex_toWaveformatex hbase
    · simp [Format.toWaveformatex, hbase]

theorem formatFromMediaType_mediaTypeFromFormat (f : Format) :
    formatFromMediaType (some (mediaTypeFromFormat f)) = .ok f.wireForm :=
  congrArg Except.ok (fromWaveformatexPtr_new f)

/-! ## Round trips -/

namespace Format

/-- Formats that lose nothing on the bridge. -/
def Canonical (f : Format) : Prop :=
  if f.extensible then
    (f.formatTag = waveFormatPcm ∨ f.formatTag = waveFormatIeeeFloat) ∧
      (f.validBitsPerSample = 0 → f.bitsPerSample = 0)
  else
    f.validBitsPerSample = 0 ∧ f.channelMask = 0

theorem wireTag_eq_self {f : Format}
    (htag : f.formatTag = waveFormatPcm ∨ f.formatTag = waveFormatIeeeFloat) :
    (if f.isIntPcm then waveFormatPcm else waveFormatIeeeFloat) =
      f.formatTag := by
  rcases htag with hpcm | hfloat
  · simp [isIntPcm, hpcm]
  · simp [isIntPcm, hfloat, waveFormatPcm, waveFormatIeeeFloat]

theorem wireForm_eq_self {f : Format} (h : f.Canonical) : f.wireForm = f := by
  by_cases hext : f.extensible = true
  · rw [Canonical, if_pos hext] at h
    obtain ⟨htag, hbits⟩ := h
    have hvalid : (if f.validBitsPerSample = 0 then f.bitsPerSample
        else f.validBitsPerSample) = f.validBitsPerSample := by
      split
      next hzero => rw [hbits hzero, hzero]
      next => rfl
    rw [wireForm_of_extensible hext, wireTag_eq_self htag, hvalid]
  · rw [Canonical, if_neg hext] at h
    rw [wireForm, if_neg hext, ← h.1, ← h.2]

theorem canonical_wireForm (f : Format) : f.wireForm.Canonical := by
  by_cases hext : f.extensible = true
  · rw [wireForm_of_extensible hext, Canonical, if_pos (by exact hext)]
    constructor
    · by_cases hpcm : f.isIntPcm = true
      · exact .inl (if_pos hpcm)
      · exact .inr (if_neg hpcm)
    · intro hzero
      by_cases hvalid : f.validBitsPerSample = 0
      · simpa [hvalid] using hzero
      · simp [hvalid] at hzero
  · rw [wireForm, if_neg hext, Canonical, if_neg (by exact hext)]
    exact ⟨rfl, rfl⟩

theorem canonical_fromRaw (formatTag channels : UInt16)
    (samplesPerSec : UInt32) (bitsPerSample : UInt16) :
    (fromRaw formatTag channels samplesPerSec bitsPerSample).Canonical :=
  ⟨rfl, rfl⟩

/-- Promoting an integer or float format makes it canonical. -/
theorem canonical_withExtensible {f : Format}
    (htag : f.formatTag = waveFormatPcm ∨ f.formatTag = waveFormatIeeeFloat) :
    f.withExtensible.Canonical := by
  refine ⟨htag, ?_⟩
  intro hzero
  by_cases hvalid : f.validBitsPerSample = 0
  · simpa [withExtensible, hvalid] using hzero
  · simp [withExtensible, hvalid] at hzero

theorem wireForm_wireForm (f : Format) : f.wireForm.wireForm = f.wireForm :=
  wireForm_eq_self (canonical_wireForm f)

/-- The wire form encodes to the same block. -/
theorem new_wireForm (f : Format) :
    FormatMediaType.new f.wireForm = FormatMediaType.new f := by
  by_cases hext : f.extensible = true
  · have hvalid : ∀ valid bits : UInt16,
        (if (if valid = 0 then bits else valid) = 0 then bits
          else if valid = 0 then bits else valid) =
          if valid = 0 then bits else valid := by
      intro valid bits
      by_cases hzero : valid = 0 <;> simp [hzero]
    rw [wireForm_of_extensible hext]
    simp [FormatMediaType.new, toWaveformatextensible, subFormatGuid, hext,
      hvalid, isIntPcm, waveFormatIeeeFloat, waveFormatPcm]
  · have hbase : f.extensible = false := by simpa using hext
    rw [wireForm_of_base hbase]
    simp [FormatMediaType.new, toWaveformatex, hbase]

/-- What a trip through a media type keeps of `f` in its result `g`. -/
structure KeptByTrip (f g : Format) : Prop where
  channels : g.channels = f.channels
  samplesPerSec : g.samplesPerSec = f.samplesPerSec
  bitsPerSample : g.bitsPerSample = f.bitsPerSample
  blockAlign : g.blockAlign = f.blockAlign
  avgBytesPerSec : g.avgBytesPerSec = f.avgBytesPerSec
  extensible : g.extensible = f.extensible
  base : f.extensible = false →
    g.formatTag = f.formatTag ∧ g.channelMask = 0 ∧ g.validBitsPerSample = 0
  extended : f.extensible = true →
    f.formatTag = waveFormatPcm ∨ f.formatTag = waveFormatIeeeFloat →
      g.formatTag = f.formatTag ∧ g.channelMask = f.channelMask ∧
        g.validBitsPerSample =
          if f.validBitsPerSample = 0 then f.bitsPerSample
          else f.validBitsPerSample

theorem keptByTrip_wireForm (f : Format) : KeptByTrip f f.wireForm where
  channels := by unfold wireForm; split <;> rfl
  samplesPerSec := by unfold wireForm; split <;> rfl
  bitsPerSample := by unfold wireForm; split <;> rfl
  blockAlign := by unfold wireForm; split <;> rfl
  avgBytesPerSec := by unfold wireForm; split <;> rfl
  extensible := by unfold wireForm; split <;> rfl
  base := by
    intro hbase
    rw [wireForm_of_base hbase]
    exact ⟨rfl, rfl, rfl⟩
  extended := by
    intro hext htag
    rw [wireForm_of_extensible hext]
    exact ⟨wireTag_eq_self htag, rfl, rfl⟩

end Format

/-- Encoding a format and decoding it again keeps what `KeptByTrip` lists, is
the identity on canonical formats, and does nothing the second time. -/
theorem formatFromMediaType_trip (f : Format) :
    ∃ g, formatFromMediaType (some (mediaTypeFromFormat f)) = .ok g ∧
      f.KeptByTrip g ∧ (f.Canonical → g = f) ∧
      formatFromMediaType (some (mediaTypeFromFormat g)) = .ok g := by
  refine ⟨f.wireForm, formatFromMediaType_mediaTypeFromFormat f,
    f.keptByTrip_wireForm, Format.wireForm_eq_self, ?_⟩
  rw [formatFromMediaType_mediaTypeFromFormat, Format.wireForm_wireForm]

end TympanApo
