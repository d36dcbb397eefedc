import TympanApo.Raw.Dispatch

/-!
# Negotiated blocks

What `negotiate_format` puts into the media type it returns: the re-encoding
of the decoded request when the APO accepts it, and, under the default hooks,
a format the APO accepts at the first attempt and keeps.
-/

namespace TympanApo.Negotiation

open TympanApo.Dispatch

variable {σ : Type*}

/-! ## Accepted requests -/

/-- The two shapes of block a host presents. -/
def WellFormedBlock (wf : WaveFormatExtensible) : Prop :=
  wf.format.cbSize = 0 ∨
    (wf.format.wFormatTag = waveFormatExtensible ∧ wf.format.cbSize = 22)

/-- Two blocks agree on every field that belongs to the first: the extension
does only when `cbSize` announces it. -/
def SameBlock (wf wf' : WaveFormatExtensible) : Prop :=
  wf'.format = wf.format ∧
    (wf.format.cbSize = 22 →
      wf'.wValidBitsPerSample = wf.wValidBitsPerSample ∧
        wf'.dwChannelMask = wf.dwChannelMask ∧ wf'.subFormat = wf.subFormat)

/-- The answer to the request `wf` is the request itself. -/
def Echoes (T : ProcessingObject σ) (self : ApoInstance σ)
    (direction : NegotiationDirection) (wf : WaveFormatExtensible) : Prop :=
  ∃ wf',
    (negotiateFormat T self (some { getAudioFormat := some wf })
      direction).answer = .ok { getAudioFormat := some wf' } ∧
    SameBlock wf wf'

/-- The blocks that decoding and encoding give back. -/
def SurvivesDecoding (wf : WaveFormatExtensible) : Prop :=
  wf.format.cbSize = 0 ∨
    ((wf.subFormat = ksdataformatSubtypePcm ∨
        wf.subFormat = ksdataformatSubtypeIeeeFloat) ∧
      (wf.wValidBitsPerSample = 0 → wf.format.wBitsPerSample = 0))

variable {T : ProcessingObject σ} {self : ApoInstance σ}
    {direction : NegotiationDirection} {wf : WaveFormatExtensible}

theorem negotiateFormat_of_accept
    (h : (formatDecision T self direction
      (Format.fromWaveformatexPtr wf)).answer = .accept) :
    (negotiateFormat T self (some { getAudioFormat := some wf })
      direction).answer =
        .ok (mediaTypeFromFormat (Format.fromWaveformatexPtr wf)) := by
  simp only [negotiateFormat, formatFromMediaType, Effect.map, h]

theorem negotiateFormat_of_suggest {alt : Format}
    (h : (formatDecision T self direction
      (Format.fromWaveformatexPtr wf)).answer = .suggest alt) :
    (negotiateFormat T self (some { getAudioFormat := some wf })
      direction).answer = .ok (mediaTypeFromFormat alt) := by
  simp only [negotiateFormat, formatFromMediaType, Effect.map, h]

/-- Encoding a decoded base block gives its fields back. -/
theorem sameBlock_of_base (h : wf.format.cbSize = 0) :
    SameBlock wf
      (FormatMediaType.new (Format.fromWaveformatexPtr wf)).wfx := by
  rw [Format.fromWaveformatexPtr_of_cbSize_zero h]
  constructor
  · obtain ⟨⟨tag, channels, rate, avg, align, bits, cbSize⟩, valid, mask, sub⟩ :=
      wf
    simp only at h
    subst h
    rfl
  · intro hsize
    rw [h] at hsize
    exact absurd hsize (by decide)

/-- Encoding a decoded extensible block replaces the sub-format by the one its
classification stands for, and zero valid bits by the container size. -/
theorem reencode_extensible (htag : wf.format.wFormatTag = waveFormatExtensible)
    (hsize : wf.format.cbSize = 22) :
    (FormatMediaType.new (Format.fromWaveformatexPtr wf)).wfx =
      { wf with
        wValidBitsPerSample :=
          if wf.wValidBitsPerSample = 0 then wf.format.wBitsPerSample
          else wf.wValidBitsPerSample
        subFormat :=
          if wf.subFormat = ksdataformatSubtypeIeeeFloat then
            ksdataformatSubtypeIeeeFloat
          else ksdataformatSubtypePcm } := by
  have hdecode : Format.fromWaveformatexPtr wf =
      Format.fromWaveformatextensible wf := by
    rw [Format.fromWaveformatexPtr, if_pos]
    rw [hsize]
    exact ⟨by decide, htag⟩
  rw [hdecode]
  obtain ⟨⟨tag, channels, rate, avg, align, bits, cbSize⟩, valid, mask, sub⟩ :=
    wf
  simp only at htag hsize
  subst htag hsize
  by_cases hsub : sub = ksdataformatSubtypeIeeeFloat
  · simp [FormatMediaType.new, Format.fromWaveformatextensible,
      Format.toWaveformatextensible, Format.subFormatGuid, Format.isIntPcm,
      waveFormatPcm, waveFormatIeeeFloat, hsub]
  · simp [FormatMediaType.new, Format.fromWaveformatextensible,
      Format.toWaveformatextensible, Format.subFormatGuid, Format.isIntPcm,
      hsub]

theorem sameBlock_iff_of_extensible
    (htag : wf.format.wFormatTag = waveFormatExtensible)
    (hsize : wf.format.cbSize = 22) :
    SameBlock wf (FormatMediaType.new (Format.fromWaveformatexPtr wf)).wfx ↔
      (wf.subFormat = ksdataformatSubtypePcm ∨
          wf.subFormat = ksdataformatSubtypeIeeeFloat) ∧
        (wf.wValidBitsPerSample = 0 → wf.format.wBitsPerSample = 0) := by
  rw [reencode_extensible htag hsize]
  constructor
  · rintro ⟨-, hextension⟩
    obtain ⟨hvalid, -, hsub⟩ := hextension hsize
    constructor
    · by_cases hfloat : wf.subFormat = ksdataformatSubtypeIeeeFloat
      · exact .inr hfloat
      · exact .inl (hsub.symm.trans (if_neg hfloat))
    · intro hzero
      simpa [hzero] using hvalid
  · rintro ⟨hsub, hvalid⟩
    refine ⟨rfl, fun _ => ⟨?_, rfl, ?_⟩⟩
    · by_cases hzero : wf.wValidBitsPerSample = 0
      · simp [hzero, hvalid hzero]
      · simp [hzero]
    · rcases hsub with hpcm | hfloat
      · simp [hpcm, Format.subtype_ieeeFloat_ne_pcm]
      · simp [hfloat]

/-- The answer to an accepted well-formed request is the request if and only if
the block survives decoding. -/
theorem echoes_iff_survivesDecoding (hwf : WellFormedBlock wf)
    (haccept : (formatDecision T self direction
      (Format.fromWaveformatexPtr wf)).answer = .accept) :
    Echoes T self direction wf ↔ SurvivesDecoding wf := by
  have hechoes : Echoes T self direction wf ↔
      SameBlock wf (FormatMediaType.new (Format.fromWaveformatexPtr wf)).wfx := by
    rw [Echoes, negotiateFormat_of_accept haccept]
    simp [mediaTypeFromFormat]
  rw [hechoes, SurvivesDecoding]
  rcases hwf with hbase | ⟨htag, hsize⟩
  · exact iff_of_true (sameBlock_of_base hbase) (.inl hbase)
  · rw [sameBlock_iff_of_extensible htag hsize]
    constructor
    · exact Or.inr
    · intro h
      refine h.resolve_left ?_
      rw [hsize]
      decide

/-- A float32 request with its valid bits spelled out. -/
def float32Block (validBits : UInt16) : WaveFormatExtensible where
  format :=
    { wFormatTag := waveFormatExtensible
      nChannels := 2
      nSamplesPerSec := 48000
      nAvgBytesPerSec := 384000
      nBlockAlign := 8
      wBitsPerSample := 32
      cbSize := 22 }
  wValidBitsPerSample := validBits
  dwChannelMask := 3
  subFormat := ksdataformatSubtypeIeeeFloat

theorem echoes_float32Block :
    Echoes passthrough (.new passthrough) .input (float32Block 32) ↔
      SurvivesDecoding (float32Block 32) :=
  echoes_iff_survivesDecoding (.inr ⟨rfl, rfl⟩) rfl

/-- The default hooks accept a float32 request that leaves its valid bits
zero, and the answer has 32 of them. -/
theorem not_echoes_zero_valid_bits :
    WellFormedBlock (float32Block 0) ∧
      (formatDecision passthrough (.new passthrough) .input
        (Format.fromWaveformatexPtr (float32Block 0))).answer = .accept ∧
      ¬ Echoes passthrough (.new passthrough) .input (float32Block 0) := by
  refine ⟨.inr ⟨rfl, rfl⟩, rfl, ?_⟩
  rintro ⟨wf', hanswer, hsame⟩
  obtain rfl : (FormatMediaType.new
      (Format.fromWaveformatexPtr (float32Block 0))).wfx = wf' := by
    have hmedia := Except.ok.inj hanswer
    exact Option.some.inj (congrArg MediaType.getAudioFormat hmedia)
  exact absurd (hsame.2 rfl).1 (by decide)

/-! ## The default hooks -/

/-- The APO keeps the trait's negotiation hooks. -/
def KeepsDefaultNegotiation (T : ProcessingObject σ) : Prop :=
  (∀ user format, T.isInputFormatSupported user format =
      (defaultFloat32Negotiation format, user)) ∧
    ∀ user format, T.isOutputFormatSupported user format =
      (defaultFloat32Negotiation format, user)

theorem formatDecision_of_default (hT : KeepsDefaultNegotiation T)
    (self : ApoInstance σ) (direction : NegotiationDirection)
    (format : Format) :
    (formatDecision T self direction format).answer =
      defaultFloat32Negotiation format := by
  cases direction with
  | input => exact congrArg Prod.fst (hT.1 self.inner format)
  | output => exact congrArg Prod.fst (hT.2 self.inner format)

/-- Formats the default hooks accept. -/
def IsFloat32 (format : Format) : Prop :=
  format.isFloat = true ∧ format.bitsPerSample = 32

theorem default_of_isFloat32 {format : Format} (h : IsFloat32 format) :
    defaultFloat32Negotiation format = .accept := by
  simp [defaultFloat32Negotiation, h.1, h.2]

theorem default_of_not_isFloat32 {format : Format} (h : ¬ IsFloat32 format) :
    defaultFloat32Negotiation format =
      .suggest (Format.pcmFloat32 format.samplesPerSec format.channels) := by
  rw [defaultFloat32Negotiation, if_neg]
  · rfl
  · simpa [IsFloat32] using h

theorem isFloat32_pcmFloat32 (sampleRate : UInt32) (channels : UInt16) :
    IsFloat32 (Format.pcmFloat32 sampleRate channels) :=
  ⟨rfl, rfl⟩

theorem isFloat32_wireForm {format : Format} (h : IsFloat32 format) :
    IsFloat32 format.wireForm := by
  obtain ⟨hfloat, hbits⟩ := h
  have htag : format.formatTag = waveFormatIeeeFloat := by
    simpa [Format.isFloat] using hfloat
  have hkept := format.keptByTrip_wireForm
  refine ⟨?_, hkept.bitsPerSample.trans hbits⟩
  have hwire : format.wireForm.formatTag = format.formatTag := by
    by_cases hext : format.extensible = true
    · exact (hkept.extended hext (.inr htag)).1
    · exact (hkept.base (by simpa using hext)).1
  simp [Format.isFloat, hwire, htag]

/-- What an APO with the default hooks settles on: `wf'` is its answer to the
request `wf`. -/
structure Settles (T : ProcessingObject σ) (inst : ApoInstance σ)
    (direction : NegotiationDirection) (wf wf' : WaveFormatExtensible) :
    Prop where
  answered : (negotiateFormat T inst (some { getAudioFormat := some wf })
    direction).answer = .ok { getAudioFormat := some wf' }
  accepted : ∀ inst' direction', (formatDecision T inst' direction'
    (Format.fromWaveformatexPtr wf')).answer = .accept
  fixed : ∀ inst' direction',
    (negotiateFormat T inst' (some { getAudioFormat := some wf' })
      direction').answer = .ok { getAudioFormat := some wf' }
  samplesPerSec : (Format.fromWaveformatexPtr wf').samplesPerSec =
    wf.format.nSamplesPerSec
  channels : (Format.fromWaveformatexPtr wf').channels = wf.format.nChannels
  /-- Locked with the answer as input format, `APOProcess` runs the hook. -/
  processes : ∀ H inst' formats u32NumInputConnections ppInputConnections
      u32NumOutputConnections ppOutputConnections inProp outProp,
    (Lifecycle.machine T).Reaches H inst' → inst'.state.load = .locked →
    (Lifecycle.successfulLocks H).getLast? = some formats →
    formats.input = Format.fromWaveformatexPtr wf' →
    formats.input.channels ≠ 0 →
    Connected u32NumInputConnections ppInputConnections
      u32NumOutputConnections ppOutputConnections inProp outProp →
    ∃ input output flags,
      (apoProcess T inst' u32NumInputConnections ppInputConnections
        u32NumOutputConnections ppOutputConnections).hooks =
          [.process input output flags]

/-- The block of a format the default hooks accept is a fixed point. -/
theorem negotiateFormat_new (hT : KeepsDefaultNegotiation T) {format : Format}
    (h : IsFloat32 format) (self : ApoInstance σ)
    (direction : NegotiationDirection) :
    (negotiateFormat T self
      (some { getAudioFormat := some (FormatMediaType.new format).wfx })
      direction).answer =
        .ok { getAudioFormat := some (FormatMediaType.new format).wfx } := by
  rw [negotiateFormat_of_accept, fromWaveformatexPtr_new, mediaTypeFromFormat,
    Format.new_wireForm]
  rw [formatDecision_of_default hT, fromWaveformatexPtr_new]
  exact default_of_isFloat32 (isFloat32_wireForm h)

theorem settles_new (hT : KeepsDefaultNegotiation T) {format : Format}
    (h : IsFloat32 format)
    (hrate : format.samplesPerSec = wf.format.nSamplesPerSec)
    (hchannels : format.channels = wf.format.nChannels)
    (hanswer : (negotiateFormat T self (some { getAudioFormat := some wf })
      direction).answer = .ok (mediaTypeFromFormat format)) :
    Settles T self direction wf (FormatMediaType.new format).wfx := by
  have hkept := format.keptByTrip_wireForm
  refine
    { answered := hanswer
      accepted := ?_
      fixed := negotiateFormat_new hT h
      samplesPerSec := ?_
      channels := ?_
      processes := ?_ }
  · intro self' direction'
    rw [formatDecision_of_default hT, fromWaveformatexPtr_new]
    exact default_of_isFloat32 (isFloat32_wireForm h)
  · rw [fromWaveformatexPtr_new, hkept.samplesPerSec, hrate]
  · rw [fromWaveformatexPtr_new, hkept.channels, hchannels]
  · intro H self' formats _ _ _ _ inProp outProp hreach hload hlast hinput
      hnonzero hconnected
    obtain ⟨formats', hcell, hlast'⟩ := Lifecycle.cache_of_locked hreach hload
    obtain rfl := Option.some.inj (hlast.symm.trans hlast')
    have hfloat : IsFloat32 formats.input := by
      rw [hinput, fromWaveformatexPtr_new]
      exact isFloat32_wireForm h
    have hgate := (passesFormatGate_iff formats.input).mpr
      ⟨hnonzero, hfloat.1, hfloat.2⟩
    obtain ⟨len, -, heffect⟩ :=
      processConnection_of_gate (T := T) inProp outProp hload hcell hgate
    rw [apoProcess_of_connected hconnected, heffect]
    exact ⟨_, _, _, rfl⟩

theorem fromWaveformatexPtr_samplesPerSec (wf : WaveFormatExtensible) :
    (Format.fromWaveformatexPtr wf).samplesPerSec =
      wf.format.nSamplesPerSec := by
  unfold Format.fromWaveformatexPtr
  split <;> rfl

theorem fromWaveformatexPtr_channels (wf : WaveFormatExtensible) :
    (Format.fromWaveformatexPtr wf).channels = wf.format.nChannels := by
  unfold Format.fromWaveformatexPtr
  split <;> rfl

/-- With the default hooks every request is answered by a block the APO
accepts, keeps, and can process. -/
theorem default_negotiation_settles (hT : KeepsDefaultNegotiation T)
    (self : ApoInstance σ) (direction : NegotiationDirection)
    (wf : WaveFormatExtensible) :
    ∃ wf', Settles T self direction wf wf' := by
  have hrate := fromWaveformatexPtr_samplesPerSec wf
  have hchannels := fromWaveformatexPtr_channels wf
  by_cases hfloat : IsFloat32 (Format.fromWaveformatexPtr wf)
  · refine ⟨_, settles_new hT hfloat hrate hchannels ?_⟩
    apply negotiateFormat_of_accept
    rw [formatDecision_of_default hT]
    exact default_of_isFloat32 hfloat
  · refine ⟨_, settles_new hT (isFloat32_pcmFloat32 _ _) hrate hchannels ?_⟩
    apply negotiateFormat_of_suggest
    rw [formatDecision_of_default hT]
    exact default_of_not_isFloat32 hfloat

theorem default_negotiation_settles_passthrough :
    ∃ wf', Settles passthrough (.new passthrough) .output (float32Block 0) wf' :=
  default_negotiation_settles ⟨fun _ _ => rfl, fun _ _ => rfl⟩ _ _ _

end TympanApo.Negotiation
