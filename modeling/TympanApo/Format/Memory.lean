import TympanApo.Layout
import TympanApo.Raw.MediaType
import TympanApo.Support.FixedCodec

/-!
# Wave blocks in memory

`Format::from_waveformatex_ptr` over the bytes behind its pointer.  A block is
18 bytes and as many more as its `cbSize` announces; what lies behind these
need not be readable, and a block that the framework hands out may be copied
up to there.
-/

namespace TympanApo.WaveBlock

open TympanApo.Support

/-! ## Layout -/

def u16 : FixedCodec UInt16 where
  width := 2
  encode n := leBytes 2 n.toNat
  decode bs := UInt16.ofNat (ofLeBytes bs)
  length_encode n := length_leBytes 2 n.toNat
  decode_encode := ofNat_ofLeBytes_leBytes16

def u32 : FixedCodec UInt32 where
  width := 4
  encode n := leBytes 4 n.toNat
  decode bs := UInt32.ofNat (ofLeBytes bs)
  length_encode n := length_leBytes 4 n.toNat
  decode_encode := ofNat_ofLeBytes_leBytes32

def guid : FixedCodec Guid where
  width := 16
  encode := guidBytes
  decode := guidOfBytes
  length_encode := length_guidBytes
  decode_encode := guidOfBytes_guidBytes

/-- `WAVEFORMATEX`, which is packed. -/
def base : FixedCodec WaveFormatEx :=
  (u16.pair (u16.pair (u32.pair (u32.pair (u16.pair (u16.pair u16)))))).record
    (fun (tag, channels, rate, average, align, bits, size) =>
      { wFormatTag := tag
        nChannels := channels
        nSamplesPerSec := rate
        nAvgBytesPerSec := average
        nBlockAlign := align
        wBitsPerSample := bits
        cbSize := size })
    (fun wf => (wf.wFormatTag, wf.nChannels, wf.nSamplesPerSec,
      wf.nAvgBytesPerSec, wf.nBlockAlign, wf.wBitsPerSample, wf.cbSize))
    fun _ => rfl

/-- `WAVEFORMATEXTENSIBLE`, which is packed. -/
def extended : FixedCodec WaveFormatExtensible :=
  (base.pair (u16.pair (u32.pair guid))).record
    (fun (format, bits, mask, subFormat) =>
      { format := format
        wValidBitsPerSample := bits
        dwChannelMask := mask
        subFormat := subFormat })
    (fun wfx => (wfx.format, wfx.wValidBitsPerSample, wfx.dwChannelMask,
      wfx.subFormat))
    fun _ => rfl

theorem width_extended : extended.width = 40 :=
  rfl

/-- `Format::from_waveformatex_ptr`, over the bytes that may be read from the
pointer on; `none` if the call reads past them. -/
def fromWaveformatexPtr (memory : List UInt8) : Option Format :=
  match base.read memory with
  | none => none
  | some wf =>
      if 22 ≤ wf.cbSize ∧ wf.wFormatTag = waveFormatExtensible then
        (extended.read memory).map Format.fromWaveformatextensible
      else some (Format.fromWaveformatex wf)

/-- The length of the block that begins at the pointer. -/
def announced (memory : List UInt8) : ℕ :=
  match base.read memory with
  | none => 18
  | some wf => 18 + wf.cbSize.toNat

/-! ## Reading -/

theorem read_base_of_extended {memory : List UInt8}
    {wfx : WaveFormatExtensible} (h : extended.read memory = some wfx) :
    base.read memory = some wfx.format := by
  have hle : 40 ≤ memory.length := by
    by_contra hlt
    rw [FixedCodec.read_eq_none_iff.mpr (not_le.mp hlt)] at h
    cases h
  have hparts : (base.pair (u16.pair (u32.pair guid))).read memory =
      some ((base.pair (u16.pair (u32.pair guid))).decode (memory.take 40)) :=
    FixedCodec.read_of_le hle
  rw [FixedCodec.read_of_le hle] at h
  obtain rfl := Option.some.inj h
  exact FixedCodec.read_pair_fst hparts

/-- The model over structures reads what the bytes spell. -/
theorem fromWaveformatexPtr_encode (wfx : WaveFormatExtensible)
    (rest : List UInt8) :
    fromWaveformatexPtr (extended.encode wfx ++ rest) =
      some (Format.fromWaveformatexPtr wfx) := by
  have hread := extended.read_encode wfx rest
  rw [fromWaveformatexPtr, read_base_of_extended hread, hread,
    Format.fromWaveformatexPtr]
  by_cases hextensible :
      22 ≤ wfx.format.cbSize ∧ wfx.format.wFormatTag = waveFormatExtensible
  · simp only [if_pos hextensible, Option.map_some]
  · simp only [if_neg hextensible]

theorem eighteen_le_announced (memory : List UInt8) : 18 ≤ announced memory := by
  unfold announced
  split
  · exact le_rfl
  · exact Nat.le_add_right _ _

theorem forty_le_announced {memory : List UInt8} {wf : WaveFormatEx}
    (hbase : base.read memory = some wf) (hsize : 22 ≤ wf.cbSize) :
    40 ≤ announced memory := by
  have hle : 22 ≤ wf.cbSize.toNat := UInt16.le_iff_toNat_le.mp hsize
  rw [announced, hbase]
  exact Nat.add_le_add_left hle 18

/-- Nothing behind the announced block is looked at. -/
theorem fromWaveformatexPtr_take (memory : List UInt8) :
    fromWaveformatexPtr (memory.take (announced memory)) =
      fromWaveformatexPtr memory := by
  have hbase := base.read_take memory (eighteen_le_announced memory)
  rw [fromWaveformatexPtr, fromWaveformatexPtr, hbase]
  cases hread : base.read memory with
  | none => rfl
  | some wf =>
      by_cases hextensible :
          22 ≤ wf.cbSize ∧ wf.wFormatTag = waveFormatExtensible
      · have hextended := extended.read_take memory
          (forty_le_announced hread hextensible.1)
        simp only [if_pos hextensible, hextended]
      · simp only [if_neg hextensible]

/-- A readable block decodes. -/
theorem exists_fromWaveformatexPtr {memory : List UInt8}
    (h : announced memory ≤ memory.length) :
    ∃ format, fromWaveformatexPtr memory = some format := by
  have hbase := FixedCodec.read_of_le (c := base)
    ((eighteen_le_announced memory).trans h)
  rw [fromWaveformatexPtr, hbase]
  dsimp only
  split
  next hextensible =>
    have hle := (forty_le_announced hbase hextensible.1).trans h
    exact ⟨_, congrArg (Option.map Format.fromWaveformatextensible)
      (FixedCodec.read_of_le (c := extended) hle)⟩
  next => exact ⟨_, rfl⟩

/-- Memory that begins with a readable block. -/
theorem fromWaveformatexPtr_of_begins {memory memory' : List UInt8}
    (h : memory.take (announced memory) <+: memory')
    (hle : announced memory ≤ memory.length) :
    fromWaveformatexPtr memory' = fromWaveformatexPtr memory := by
  obtain ⟨beyond, rfl⟩ := h
  have htake : (memory.take (announced memory) ++ beyond).take
      (announced memory) = memory.take (announced memory) :=
    List.take_left' (List.length_take_of_le hle)
  have hannounced : announced (memory.take (announced memory) ++ beyond) =
      announced memory := by
    have hbase := base.read_take
      (memory.take (announced memory) ++ beyond) (eighteen_le_announced memory)
    rw [htake, base.read_take _ (eighteen_le_announced memory)] at hbase
    rw [announced, ← hbase]
    rfl
  rw [← fromWaveformatexPtr_take, hannounced, htake, fromWaveformatexPtr_take]

/-! ## The blocks of the framework -/

/-- The bytes of a media type of the framework. -/
def blockOf (format : Format) : List UInt8 :=
  extended.encode (FormatMediaType.new format).wfx

theorem announced_blockOf (format : Format) :
    announced (blockOf format) = if format.extensible then 40 else 18 := by
  have hread := extended.read_encode (FormatMediaType.new format).wfx []
  rw [List.append_nil] at hread
  have hbase := read_base_of_extended hread
  rw [announced, blockOf, hbase, FormatMediaType.new]
  by_cases hextensible : format.extensible = true
  · rw [if_pos hextensible, if_pos hextensible]
    rfl
  · simp [hextensible, Format.toWaveformatex]

/-- Whatever bytes lie behind the pointer: a block that is readable as far as
it announces is decoded, from these bytes alone; and every block that the
framework hands out, cut off there, decodes to what a media type keeps of its
format. -/
theorem reads_announced_block :
    (∀ memory memory' : List UInt8, announced memory ≤ memory.length →
      memory.take (announced memory) <+: memory' →
        ∃ format, fromWaveformatexPtr memory = some format ∧
          fromWaveformatexPtr memory' = some format) ∧
      ∀ (format : Format) (beyond : List UInt8),
        fromWaveformatexPtr
            ((blockOf format).take (announced (blockOf format)) ++ beyond) =
          some format.wireForm := by
  constructor
  · intro memory memory' hle hbegins
    obtain ⟨format, hformat⟩ := exists_fromWaveformatexPtr hle
    refine ⟨format, hformat, ?_⟩
    rw [fromWaveformatexPtr_of_begins hbegins hle, hformat]
  · intro format beyond
    have hle : announced (blockOf format) ≤ (blockOf format).length := by
      rw [announced_blockOf, blockOf, extended.length_encode, width_extended]
      split <;> decide
    have hdecoded := fromWaveformatexPtr_encode (FormatMediaType.new format).wfx
      []
    rw [List.append_nil, fromWaveformatexPtr_new] at hdecoded
    rw [fromWaveformatexPtr_of_begins (List.prefix_append _ _) hle]
    exact hdecoded

end TympanApo.WaveBlock
