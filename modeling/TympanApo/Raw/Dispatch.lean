import TympanApo.Instance.Lifecycle
import TympanApo.Raw.MediaType

/-!
# The dispatch bodies of the COM methods

The functions of `raw/dispatch.rs` behind `Initialize`, `LockForProcess`,
`UnlockForProcess` and `APOProcess`.  The host passes an array of pointers and
its length, and only the first entry is ever read: an array argument is `none`
when the array is null, and otherwise carries the first entry, itself `none`
when that is null.
-/

namespace TympanApo.Dispatch

variable {σ : Type*}

/-- The fields of `APO_CONNECTION_DESCRIPTOR` the bridge reads. -/
structure ConnectionDescriptor where
  pFormat : Option MediaType
  u32Signature : UInt32
  deriving DecidableEq, Repr

/-- `format_from_descriptor`. -/
def formatFromDescriptor :
    Option ConnectionDescriptor → Except ComError Format
  | none => .error
      { code := HResult.ePointer
        message := "APO_CONNECTION_DESCRIPTOR pointer was null" }
  | some descriptor =>
      if descriptor.u32Signature ≠ connectionPropertySignature then
        .error
          { code := HResult.apoerrInvalidInputData
            message :=
              "APO_CONNECTION_DESCRIPTOR.u32Signature did not match 'APOC'" }
      else
        match descriptor.pFormat with
        | none => .error
            { code := HResult.apoerrFormatNotSupported
              message := "APO_CONNECTION_DESCRIPTOR.pFormat was None" }
        | some mediaType =>
            match mediaType.getAudioFormat with
            | none => .error
                { code := HResult.apoerrFormatNotSupported
                  message := "IAudioMediaType::GetAudioFormat returned null" }
            | some wf => .ok (Format.fromWaveformatexPtr wf)

/-- `initialize`. -/
def initializeInstance (self : ApoInstance σ) :
    Effect σ (Except ComError Unit) :=
  self.initializeInstance.map fun result => result.mapError fun code =>
    { code, message := "ProcessingObject::initialize failed" }

/-- `lock_for_process`. -/
def lockForProcess (T : ProcessingObject σ) (self : ApoInstance σ)
    (u32NumInputConnections : UInt32)
    (ppInputConnections : Option (Option ConnectionDescriptor))
    (u32NumOutputConnections : UInt32)
    (ppOutputConnections : Option (Option ConnectionDescriptor)) :
    Effect σ (Except ComError Unit) :=
  if u32NumInputConnections ≠ 1 ∨ u32NumOutputConnections ≠ 1 then
    { answer := .error
        { code := HResult.apoerrNumConnectionsInvalid
          message :=
            "framework supports exactly one input and one output connection" }
      inst := self
      hooks := [] }
  else
    match ppInputConnections, ppOutputConnections with
    | some inputDesc, some outputDesc =>
        match formatFromDescriptor inputDesc with
        | .error e => { answer := .error e, inst := self, hooks := [] }
        | .ok inputFormat =>
            match formatFromDescriptor outputDesc with
            | .error e => { answer := .error e, inst := self, hooks := [] }
            | .ok outputFormat =>
                (self.lockForProcess T inputFormat outputFormat).map
                  fun result => result.mapError fun code =>
                    { code
                      message := "ProcessingObject::lock_for_process failed" }
    | _, _ =>
        { answer := .error
            { code := HResult.ePointer
              message := "connection-descriptor array pointer was null" }
          inst := self
          hooks := [] }

/-- `unlock_for_process`. -/
def unlockForProcess (T : ProcessingObject σ) (self : ApoInstance σ) :
    Effect σ (Except ComError Unit) :=
  (self.unlockForProcess T).map fun result => result.mapError fun code =>
    { code, message := "ProcessingObject::unlock_for_process failed" }

/-! ## `APOProcess` -/

/-- A pointer array of `APOProcess`, seen through its first entry. -/
abbrev Connections := Option (Option ConnectionProperty)

/-- The stamp of `mark_output_silent` on a property. -/
def stampSilent (out : ConnectionProperty) (frameCount : UInt32) :
    ConnectionProperty :=
  { out with
    u32ValidFrameCount := frameCount
    u32BufferFlags := BufferFlags.silent }

/-- `mark_output_silent`: the output array it leaves. -/
def markOutputSilent (u32NumOutputConnections : UInt32)
    (ppOutputConnections : Connections) (frameCount : UInt32) : Connections :=
  if u32NumOutputConnections = 1 then
    ppOutputConnections.map fun outPtr =>
      outPtr.map fun out => stampSilent out frameCount
  else
    ppOutputConnections

/-- The format gate of `apo_process` on the locked input format. -/
def passesFormatGate (input : Format) : Bool :=
  !(input.channels == 0 || !input.isFloat || input.bitsPerSample != 32)

/-- The part of `apo_process` past its checks of the arguments. -/
def processConnection (T : ProcessingObject σ) (self : ApoInstance σ)
    (inProp outProp : ConnectionProperty) :
    Effect σ ConnectionProperty :=
  match self.lockedFormats with
  | none => { answer := stampSilent outProp 0, inst := self, hooks := [] }
  | some formats =>
      if !passesFormatGate formats.input then
        { answer := stampSilent outProp 0, inst := self, hooks := [] }
      else
        match checkedMul inProp.u32ValidFrameCount.toUInt64
            formats.input.channels.toUInt64 with
        | none => { answer := stampSilent outProp 0, inst := self, hooks := [] }
        | some sampleCount =>
            (self.process T
              { samples := { addr := inProp.pBuffer, len := sampleCount }
                flags := inProp.u32BufferFlags }
              { addr := outProp.pBuffer, len := sampleCount }).map fun
                | .ok outFlags =>
                    { outProp with
                      u32ValidFrameCount := inProp.u32ValidFrameCount
                      u32BufferFlags := outFlags }
                | .error _ => stampSilent outProp inProp.u32ValidFrameCount

/-- `apo_process`.  The input and output properties are distinct objects, and
the answer is the output array it leaves. -/
def apoProcess (T : ProcessingObject σ) (self : ApoInstance σ)
    (u32NumInputConnections : UInt32) (ppInputConnections : Connections)
    (u32NumOutputConnections : UInt32) (ppOutputConnections : Connections) :
    Effect σ Connections :=
  let markSilent (frameCount : UInt32) : Effect σ Connections :=
    { answer :=
        markOutputSilent u32NumOutputConnections ppOutputConnections frameCount
      inst := self
      hooks := [] }
  if u32NumInputConnections ≠ 1 ∨ u32NumOutputConnections ≠ 1 then
    markSilent 0
  else
    match ppInputConnections, ppOutputConnections with
    | some (some inProp), some (some outProp) =>
        if inProp.u32Signature ≠ connectionPropertySignature ∨
            outProp.u32Signature ≠ connectionPropertySignature then
          markSilent 0
        else
          (processConnection T self inProp outProp).map fun out =>
            some (some out)
    | _, _ => markSilent 0

variable {T : ProcessingObject σ} {self : ApoInstance σ}

theorem passesFormatGate_iff (input : Format) :
    passesFormatGate input = true ↔
      input.channels ≠ 0 ∧ input.isFloat = true ∧
        input.bitsPerSample = 32 := by
  simp [passesFormatGate, and_assoc]

/-- `apo_process` got as far as its two connection properties. -/
structure Connected (u32NumInputConnections : UInt32)
    (ppInputConnections : Connections) (u32NumOutputConnections : UInt32)
    (ppOutputConnections : Connections)
    (inProp outProp : ConnectionProperty) : Prop where
  inputs : u32NumInputConnections = 1
  outputs : u32NumOutputConnections = 1
  input : ppInputConnections = some (some inProp)
  output : ppOutputConnections = some (some outProp)
  inputSignature : inProp.u32Signature = connectionPropertySignature
  outputSignature : outProp.u32Signature = connectionPropertySignature

section Connections

variable {u32NumInputConnections u32NumOutputConnections : UInt32}
    {ppInputConnections ppOutputConnections : Connections}

theorem apoProcess_of_connected {inProp outProp : ConnectionProperty}
    (h : Connected u32NumInputConnections ppInputConnections
      u32NumOutputConnections ppOutputConnections inProp outProp) :
    apoProcess T self u32NumInputConnections ppInputConnections
        u32NumOutputConnections ppOutputConnections =
      (processConnection T self inProp outProp).map fun out =>
        some (some out) := by
  obtain ⟨rfl, rfl, rfl, rfl, hin, hout⟩ := h
  simp [apoProcess, hin, hout]

/-- Every argument check that fails stamps the output and runs nothing. -/
theorem apoProcess_of_not_connected
    (h : ∀ inProp outProp, ¬ Connected u32NumInputConnections
      ppInputConnections u32NumOutputConnections ppOutputConnections
      inProp outProp) :
    apoProcess T self u32NumInputConnections ppInputConnections
        u32NumOutputConnections ppOutputConnections =
      { answer :=
          markOutputSilent u32NumOutputConnections ppOutputConnections 0
        inst := self
        hooks := [] } := by
  unfold apoProcess
  split
  next => rfl
  next hcounts =>
    split
    next inProp outProp =>
      split
      next => rfl
      next hsignatures =>
        rw [not_or, not_not, not_not] at hcounts hsignatures
        exact absurd ⟨hcounts.1, hcounts.2, rfl, rfl, hsignatures.1,
          hsignatures.2⟩ (h inProp outProp)
    next => rfl

end Connections

/-- A connection whose locked format passes the gate runs the process hook
once, on two slices of one sample per frame and input channel: the user's state
is what the hook makes of it, and the output carries the flags it returns. -/
theorem processConnection_of_gate (inProp outProp : ConnectionProperty)
    {formats : LockedFormats} (hload : self.state.load = .locked)
    (hcell : self.lockedFormatsCell = some formats)
    (hgate : passesFormatGate formats.input = true) :
    ∃ len,
      len.toNat =
        inProp.u32ValidFrameCount.toNat * formats.input.channels.toNat ∧
      let input : ProcessInput :=
        { samples := { addr := inProp.pBuffer, len }
          flags := inProp.u32BufferFlags }
      let output : Slice := { addr := outProp.pBuffer, len }
      let hook := T.process self.inner input output
      processConnection T self inProp outProp =
        { answer :=
            { outProp with
              u32ValidFrameCount := inProp.u32ValidFrameCount
              u32BufferFlags := hook.1 }
          inst := { self with inner := hook.2 }
          hooks := [.process input output hook.1] } := by
  obtain ⟨len, hlen, hvalue⟩ := checkedMul_frames_channels
    inProp.u32ValidFrameCount formats.input.channels
  have hformats : self.lockedFormats = some formats :=
    (ApoInstance.lockedFormats_of_locked hload).trans hcell
  refine ⟨len, hvalue, ?_⟩
  simp only [processConnection, hformats, hgate, hlen,
    ApoInstance.process_of_locked _ _ hload]
  rfl

theorem processConnection_of_not_locked {inProp outProp : ConnectionProperty}
    (hload : self.state.load ≠ .locked) :
    processConnection T self inProp outProp =
      { answer := stampSilent outProp 0, inst := self, hooks := [] } := by
  rw [processConnection, ApoInstance.lockedFormats_of_ne hload]

theorem processConnection_of_not_gate {inProp outProp : ConnectionProperty}
    {formats : LockedFormats} (hload : self.state.load = .locked)
    (hcell : self.lockedFormatsCell = some formats)
    (hgate : passesFormatGate formats.input = false) :
    processConnection T self inProp outProp =
      { answer := stampSilent outProp 0, inst := self, hooks := [] } := by
  rw [processConnection, ApoInstance.lockedFormats_of_locked hload, hcell]
  simp only [hgate, Bool.not_false, if_true]

/-! ## Outcomes of `APOProcess` -/

open TympanApo.Lifecycle
open TympanApo.Support

/-- The conditions under which a call on an instance with history `H` reaches
the process hook; `formats` are those of the latest successful lock. -/
structure Ready (H : List Event) (inst : ApoInstance σ)
    (u32NumInputConnections : UInt32) (ppInputConnections : Connections)
    (u32NumOutputConnections : UInt32) (ppOutputConnections : Connections)
    (inProp outProp : ConnectionProperty) (formats : LockedFormats) : Prop
    extends Connected u32NumInputConnections ppInputConnections
      u32NumOutputConnections ppOutputConnections inProp outProp where
  locked : inst.state.load = .locked
  formats_eq : (successfulLocks H).getLast? = some formats
  channels : formats.input.channels ≠ 0
  isFloat : formats.input.isFloat = true
  bitsPerSample : formats.input.bitsPerSample = 32

/-- The ways a call can end. -/
inductive ProcessOutcome
  | ran
  | silenced
  | dropped

/-- What each way of ending means.  The user's hook is `T.process` on the
user's state of the instance. -/
def Ends (T : ProcessingObject σ) (H : List Event) (self : ApoInstance σ)
    (u32NumInputConnections : UInt32) (ppInputConnections : Connections)
    (u32NumOutputConnections : UInt32) (ppOutputConnections : Connections) :
    ProcessOutcome → Prop :=
  let e := apoProcess T self u32NumInputConnections ppInputConnections
    u32NumOutputConnections ppOutputConnections
  let ready := Ready H self u32NumInputConnections ppInputConnections
    u32NumOutputConnections ppOutputConnections
  fun
  | .ran =>
      ∃ inProp outProp formats, ready inProp outProp formats ∧
        ∃ len,
          len.toNat =
            inProp.u32ValidFrameCount.toNat * formats.input.channels.toNat ∧
          let input : ProcessInput :=
            { samples := { addr := inProp.pBuffer, len }
              flags := inProp.u32BufferFlags }
          let output : Slice := { addr := outProp.pBuffer, len }
          let hook := T.process self.inner input output
          e.hooks = [.process input output hook.1] ∧
          e.inst = { self with inner := hook.2 } ∧
          e.answer = some (some
            { outProp with
              u32ValidFrameCount := inProp.u32ValidFrameCount
              u32BufferFlags := hook.1 })
  | .silenced =>
      (¬ ∃ inProp outProp formats, ready inProp outProp formats) ∧
        u32NumOutputConnections = 1 ∧
        ∃ outProp, ppOutputConnections = some (some outProp) ∧
          e.hooks = [] ∧ e.inst = self ∧
          e.answer = some (some (stampSilent outProp 0))
  | .dropped =>
      (u32NumOutputConnections ≠ 1 ∨ ppOutputConnections = none ∨
        ppOutputConnections = some none) ∧
        e.hooks = [] ∧ e.inst = self ∧ e.answer = ppOutputConnections

section Outcome

variable {H : List Event}
    {u32NumInputConnections u32NumOutputConnections : UInt32}
    {ppInputConnections ppOutputConnections : Connections}

theorem ends_ran {inProp outProp : ConnectionProperty}
    {formats : LockedFormats} (hreach : (machine T).Reaches H self)
    (h : Ready H self u32NumInputConnections ppInputConnections
      u32NumOutputConnections ppOutputConnections inProp outProp formats) :
    Ends T H self u32NumInputConnections ppInputConnections
      u32NumOutputConnections ppOutputConnections .ran := by
  have hcell : self.lockedFormatsCell = some formats := by
    obtain ⟨formats', hcell, hlast⟩ := cache_of_locked hreach h.locked
    rw [hcell, ← hlast, h.formats_eq]
  have hgate := (passesFormatGate_iff formats.input).mpr
    ⟨h.channels, h.isFloat, h.bitsPerSample⟩
  obtain ⟨len, hlen, heffect⟩ :=
    processConnection_of_gate (T := T) inProp outProp h.locked hcell hgate
  refine ⟨inProp, outProp, formats, h, len, hlen, ?_⟩
  rw [apoProcess_of_connected h.toConnected, heffect]
  exact ⟨rfl, rfl, rfl⟩

/-- A call that does not reach the hook stamps the output it can reach. -/
theorem apoProcess_of_not_ready (hreach : (machine T).Reaches H self)
    (h : ¬ ∃ inProp outProp formats, Ready H self u32NumInputConnections
      ppInputConnections u32NumOutputConnections ppOutputConnections
      inProp outProp formats) :
    apoProcess T self u32NumInputConnections ppInputConnections
        u32NumOutputConnections ppOutputConnections =
      { answer :=
          markOutputSilent u32NumOutputConnections ppOutputConnections 0
        inst := self
        hooks := [] } := by
  by_cases hconnected : ∃ inProp outProp, Connected u32NumInputConnections
      ppInputConnections u32NumOutputConnections ppOutputConnections
      inProp outProp
  · obtain ⟨inProp, outProp, hconnected⟩ := hconnected
    have hsilent : processConnection T self inProp outProp =
        { answer := stampSilent outProp 0, inst := self, hooks := [] } := by
      by_cases hload : self.state.load = .locked
      · obtain ⟨formats, hcell, hlast⟩ := cache_of_locked hreach hload
        apply processConnection_of_not_gate hload hcell
        rw [Bool.eq_false_iff]
        intro hgate
        obtain ⟨hchannels, hfloat, hbits⟩ :=
          (passesFormatGate_iff formats.input).mp hgate
        exact h ⟨inProp, outProp, formats, hconnected, hload, hlast, hchannels,
          hfloat, hbits⟩
      · exact processConnection_of_not_locked hload
    rw [apoProcess_of_connected hconnected, hsilent]
    obtain ⟨-, rfl, -, rfl, -, -⟩ := hconnected
    rfl
  · apply apoProcess_of_not_connected
    intro inProp outProp hcontra
    exact hconnected ⟨inProp, outProp, hcontra⟩

end Outcome

/-- Every call of `apo_process` on a reachable instance ends in exactly one of
the three ways. -/
theorem apoProcess_ends {H : List Event}
    (hreach : (machine T).Reaches H self)
    (u32NumInputConnections : UInt32) (ppInputConnections : Connections)
    (u32NumOutputConnections : UInt32) (ppOutputConnections : Connections) :
    ∃! outcome, Ends T H self u32NumInputConnections ppInputConnections
      u32NumOutputConnections ppOutputConnections outcome := by
  by_cases hready : ∃ inProp outProp formats, Ready H self
      u32NumInputConnections ppInputConnections u32NumOutputConnections
      ppOutputConnections inProp outProp formats
  · obtain ⟨inProp, outProp, formats, hready⟩ := hready
    refine ⟨.ran, ends_ran hreach hready, ?_⟩
    rintro (_ | _ | _) hends
    · rfl
    · exact absurd ⟨inProp, outProp, formats, hready⟩ hends.1
    · have hnull := hends.1
      simp [hready.outputs, hready.output] at hnull
  · have heffect := apoProcess_of_not_ready hreach hready
    have hnot_ran : ¬ Ends T H self u32NumInputConnections ppInputConnections
        u32NumOutputConnections ppOutputConnections .ran := by
      rintro ⟨inProp, outProp, formats, hcontra, -⟩
      exact hready ⟨inProp, outProp, formats, hcontra⟩
    by_cases hout : u32NumOutputConnections = 1 ∧
        ∃ outProp, ppOutputConnections = some (some outProp)
    · obtain ⟨rfl, outProp, rfl⟩ := hout
      refine ⟨.silenced, ⟨hready, rfl, outProp, rfl, ?_⟩, ?_⟩
      · rw [heffect]
        exact ⟨rfl, rfl, rfl⟩
      · rintro (_ | _ | _) hends
        · exact absurd hends hnot_ran
        · rfl
        · simpa using hends.1
    · have hdropped : u32NumOutputConnections ≠ 1 ∨
          ppOutputConnections = none ∨ ppOutputConnections = some none := by
        rcases ppOutputConnections with _ | _ | outProp
        · exact .inr (.inl rfl)
        · exact .inr (.inr rfl)
        · exact .inl fun hcount => hout ⟨hcount, outProp, rfl⟩
      refine ⟨.dropped, ⟨hdropped, ?_⟩, ?_⟩
      · rw [heffect]
        refine ⟨rfl, rfl, ?_⟩
        rcases hdropped with hcount | rfl | rfl
        · exact if_neg hcount
        · exact ite_self _
        · exact ite_self _
      · rintro (_ | _ | _) hends
        · exact absurd hends hnot_ran
        · obtain ⟨-, hcount, outProp, hentry, -⟩ := hends
          exact absurd ⟨hcount, outProp, hentry⟩ hout
        · rfl

theorem apoProcess_ends_passthrough :
    ∃ H self, (machine passthrough).Reaches H self ∧
      self.state.load = .locked ∧
      ∃! outcome, Ends passthrough H self
        1 (some (some ⟨0x1000, 480, .valid, connectionPropertySignature⟩))
        1 (some (some ⟨0x9000, 0, .invalid, connectionPropertySignature⟩))
        outcome := by
  have hreach : (machine passthrough).Reaches _ _ :=
    Machine.reaches_of_exec
      [.initializeInstance,
        .lockForProcess (.pcmFloat32 48000 2) (.pcmFloat32 48000 2)]
      rfl
  exact ⟨_, _, hreach, rfl, apoProcess_ends hreach _ _ _ _⟩

/-- An `APOProcess` call is at most one `process` call on the instance, so
serial runs through the COM methods are serial runs. -/
theorem apoProcess_inst (u32NumInputConnections : UInt32)
    (ppInputConnections : Connections) (u32NumOutputConnections : UInt32)
    (ppOutputConnections : Connections) :
    (apoProcess T self u32NumInputConnections ppInputConnections
        u32NumOutputConnections ppOutputConnections).inst = self ∨
      ∃ input output,
        (apoProcess T self u32NumInputConnections ppInputConnections
          u32NumOutputConnections ppOutputConnections).inst =
            (perform T self (.process input output)).inst := by
  have hconnection : ∀ inProp outProp,
      (processConnection T self inProp outProp).inst = self ∨
        ∃ input output, (processConnection T self inProp outProp).inst =
          (perform T self (.process input output)).inst := by
    intro inProp outProp
    unfold processConnection
    split
    next => exact .inl rfl
    next =>
      split
      next => exact .inl rfl
      next =>
        split
        next => exact .inl rfl
        next => exact .inr ⟨_, _, rfl⟩
  by_cases hconnected : ∃ inProp outProp, Connected u32NumInputConnections
      ppInputConnections u32NumOutputConnections ppOutputConnections
      inProp outProp
  · obtain ⟨inProp, outProp, hconnected⟩ := hconnected
    rw [apoProcess_of_connected hconnected]
    exact hconnection inProp outProp
  · rw [apoProcess_of_not_connected]
    · exact .inl rfl
    · intro inProp outProp hcontra
      exact hconnected ⟨inProp, outProp, hcontra⟩

end TympanApo.Dispatch
