import TympanApo.Raw.Dispatch
import Mathlib.Tactic.Ring

/-!
# Slices and host buffers

`apo_process` cuts both of its slices to `frames × input channels` samples of
four bytes.  The host sizes each buffer by the frame size of that buffer's own
format, so the slices stay inside exactly when four bytes per input channel
fit a frame of both formats.
-/

namespace TympanApo.Dispatch

open TympanApo.Lifecycle
open TympanApo.Support

variable {σ : Type*}

/-- A slice lies inside the buffer of `len` bytes at `addr`. -/
def SliceInside (s : Slice) (addr : UInt64) (len : ℕ) : Prop :=
  s.addr = addr ∧ s.bytes ≤ len

/-- Every slice handed to the process hook lies inside its host buffer, of
`inLen` and `outLen` bytes. -/
def SlicesInside (hooks : List HookCall) (inProp outProp : ConnectionProperty)
    (inLen outLen : ℕ) : Prop :=
  ∀ input output flags, .process input output flags ∈ hooks →
    SliceInside input.samples inProp.pBuffer inLen ∧
      SliceInside output outProp.pBuffer outLen

/-- Every call with `frames` valid frames, on host buffers that hold as many
frames of the locked formats, keeps its slices inside them. -/
def StaysInside (T : ProcessingObject σ) (self : ApoInstance σ)
    (formats : LockedFormats) (frames : UInt32) : Prop :=
  ∀ (u32NumInputConnections u32NumOutputConnections : UInt32)
    (inProp outProp : ConnectionProperty) (inLen outLen : ℕ),
    inProp.u32ValidFrameCount = frames →
    frames.toNat * formats.input.blockAlign.toNat ≤ inLen →
    frames.toNat * formats.output.blockAlign.toNat ≤ outLen →
    SlicesInside
      (apoProcess T self u32NumInputConnections (some (some inProp))
        u32NumOutputConnections (some (some outProp))).hooks
      inProp outProp inLen outLen

/-- The slices that `apo_process` cuts for `frames` frames fit buffers sized
by the locked formats. -/
def GeometryFits (formats : LockedFormats) (frames : UInt32) : Prop :=
  passesFormatGate formats.input = false ∨ frames = 0 ∨
    (4 * formats.input.channels.toNat ≤ formats.input.blockAlign.toNat ∧
      4 * formats.input.channels.toNat ≤ formats.output.blockAlign.toNat)

variable {T : ProcessingObject σ} {self : ApoInstance σ}
    {formats : LockedFormats} {frames : UInt32}

theorem slicesInside_of_no_hooks {inProp outProp : ConnectionProperty}
    {inLen outLen : ℕ} : SlicesInside [] inProp outProp inLen outLen := by
  intro input output flags hmem
  cases hmem

/-- The bytes of a slice of one sample per frame and channel. -/
theorem bytes_le_iff {len : UInt64} {channels blockAlign : ℕ}
    (hlen : len.toNat = frames.toNat * channels) (addr : UInt64) :
    Slice.bytes { addr, len } ≤ frames.toNat * blockAlign ↔
      frames = 0 ∨ 4 * channels ≤ blockAlign := by
  have hbytes : Slice.bytes { addr, len } = frames.toNat * (4 * channels) := by
    rw [Slice.bytes, hlen]
    ring
  rw [hbytes]
  by_cases hframes : frames = 0
  · simp [hframes]
  · have hpos : 0 < frames.toNat := by
      rw [Nat.pos_iff_ne_zero]
      intro hzero
      exact hframes (UInt32.toNat_inj.mp hzero)
    rw [Nat.mul_le_mul_left_iff hpos]
    simp [hframes]

theorem staysInside_of_geometryFits (hload : self.state.load = .locked)
    (hcell : self.lockedFormatsCell = some formats)
    (hfits : GeometryFits formats frames) :
    StaysInside T self formats frames := by
  intro u32NumInputConnections u32NumOutputConnections inProp outProp inLen
    outLen hframes hinLen houtLen
  by_cases hconnected : Connected u32NumInputConnections (some (some inProp))
      u32NumOutputConnections (some (some outProp)) inProp outProp
  · rw [apoProcess_of_connected hconnected]
    rcases hfits with hgate | hfits
    · rw [processConnection_of_not_gate hload hcell hgate]
      exact slicesInside_of_no_hooks
    · by_cases hgate : passesFormatGate formats.input = true
      · obtain ⟨len, hlen, heffect⟩ :=
          processConnection_of_gate (T := T) inProp outProp hload hcell hgate
        rw [heffect]
        intro input output flags' hmem
        obtain ⟨rfl, rfl, -⟩ := HookCall.process.inj (List.mem_singleton.mp hmem)
        rw [hframes] at hlen
        constructor
        · refine ⟨rfl, le_trans ((bytes_le_iff hlen _).mpr ?_) hinLen⟩
          exact hfits.imp_right And.left
        · refine ⟨rfl, le_trans ((bytes_le_iff hlen _).mpr ?_) houtLen⟩
          exact hfits.imp_right And.right
      · rw [Bool.not_eq_true] at hgate
        rw [processConnection_of_not_gate hload hcell hgate]
        exact slicesInside_of_no_hooks
  · rw [apoProcess_of_not_connected]
    · exact slicesInside_of_no_hooks
    · intro inProp' outProp' hcontra
      have hin := Option.some.inj (Option.some.inj hcontra.input)
      have hout := Option.some.inj (Option.some.inj hcontra.output)
      subst hin hout
      exact hconnected hcontra

/-- A call on buffers of exactly the promised size shows that the geometry
fits. -/
theorem geometryFits_of_staysInside (hload : self.state.load = .locked)
    (hcell : self.lockedFormatsCell = some formats)
    (hinside : StaysInside T self formats frames) :
    GeometryFits formats frames := by
  by_cases hgate : passesFormatGate formats.input = true
  · let inProp : ConnectionProperty :=
      ⟨0, frames, .valid, connectionPropertySignature⟩
    let outProp : ConnectionProperty :=
      ⟨0, 0, .invalid, connectionPropertySignature⟩
    have hconnected : Connected 1 (some (some inProp)) 1 (some (some outProp))
        inProp outProp := ⟨rfl, rfl, rfl, rfl, rfl, rfl⟩
    obtain ⟨len, hlen, heffect⟩ :=
      processConnection_of_gate (T := T) inProp outProp hload hcell hgate
    have hslices := hinside 1 1 inProp outProp _ _ rfl le_rfl le_rfl
    rw [apoProcess_of_connected hconnected, heffect] at hslices
    obtain ⟨hin, hout⟩ := hslices _ _ _ (List.mem_singleton.mpr rfl)
    have hinFits := (bytes_le_iff hlen _).mp hin.2
    have houtFits := (bytes_le_iff hlen _).mp hout.2
    right
    by_cases hframes : frames = 0
    · exact .inl hframes
    · exact .inr ⟨hinFits.resolve_left hframes, houtFits.resolve_left hframes⟩
  · exact .inl (by simpa using hgate)

/-- After a lock, the slices of every call stay inside the host's buffers if
and only if the geometry of the locked formats fits. -/
theorem staysInside_iff_geometryFits {H : List Event}
    (hreach : (machine T).Reaches H self) (hload : self.state.load = .locked)
    (hformats : (successfulLocks H).getLast? = some formats) :
    StaysInside T self formats frames ↔ GeometryFits formats frames := by
  have hcell : self.lockedFormatsCell = some formats := by
    obtain ⟨formats', hcell, hlast⟩ := cache_of_locked hreach hload
    rw [hcell, ← hlast, hformats]
  exact ⟨geometryFits_of_staysInside hload hcell,
    staysInside_of_geometryFits hload hcell⟩

theorem staysInside_stereo :
    ∃ H self, (machine passthrough).Reaches H self ∧
      (StaysInside passthrough self
          ⟨.pcmFloat32 48000 2, .pcmFloat32 48000 2⟩ 480 ↔
        GeometryFits ⟨.pcmFloat32 48000 2, .pcmFloat32 48000 2⟩ 480) := by
  have hreach : (machine passthrough).Reaches _ _ :=
    Machine.reaches_of_exec
      [.initializeInstance,
        .lockForProcess (.pcmFloat32 48000 2) (.pcmFloat32 48000 2)]
      rfl
  exact ⟨_, _, hreach, staysInside_iff_geometryFits hreach rfl rfl⟩

/-- Locked with six input channels and one output channel, a call of 480
frames writes 11520 bytes to an output buffer of 1920. -/
theorem not_staysInside_six_to_one :
    ∃ H self, (machine passthrough).Reaches H self ∧
      self.state.load = .locked ∧
      (successfulLocks H).getLast? =
        some ⟨.pcmFloat32 48000 6, .pcmFloat32 48000 1⟩ ∧
      ¬ StaysInside passthrough self
        ⟨.pcmFloat32 48000 6, .pcmFloat32 48000 1⟩ 480 := by
  have hreach : (machine passthrough).Reaches _ _ :=
    Machine.reaches_of_exec
      [.initializeInstance,
        .lockForProcess (.pcmFloat32 48000 6) (.pcmFloat32 48000 1)]
      rfl
  refine ⟨_, _, hreach, rfl, rfl, ?_⟩
  intro hinside
  have hslices := hinside 1 1
    ⟨0x1000, 480, .valid, connectionPropertySignature⟩
    ⟨0x9000, 0, .invalid, connectionPropertySignature⟩ 11520 1920
    rfl (by decide) (by decide) _ _ _ (List.mem_singleton.mpr rfl)
  exact absurd hslices.2.2 (by decide)

end TympanApo.Dispatch
