import TympanApo.Aec
import TympanApo.Raw.LockDispatch

/-!
# The auxiliary-input methods

The dispatch bodies of `raw/dispatch.rs` behind `AddAuxiliaryInput`, the
auxiliary `IsInputFormatSupported` and `AcceptInput`.  `AcceptInput` and
`APOProcess` are the two realtime entry points; each repeats the signature
check, the lock check, the format gate and the size computation by hand, and
the module proves that they agree on all of them.
-/

namespace TympanApo.Dispatch

variable {σ : Type*}

/-- The byte slice behind `pbydata` and `cbdatasize`; a pointer that is not
null is seen through the bytes it leads to. -/
def initDataOf (cbdatasize : UInt32) (pbydata : Option (ℕ → UInt8)) :
    List UInt8 :=
  if cbdatasize = 0 then
    []
  else
    match pbydata with
    | none => []
    | some bytes => (List.range cbdatasize.toNat).map bytes

/-- `aec_add_auxiliary_input`. -/
def aecAddAuxiliaryInput (T : AecProcessingObject σ) (self : AecApoInstance σ)
    (dwinputid cbdatasize : UInt32) (pbydata : Option (ℕ → UInt8))
    (pinputconnection : Option ConnectionDescriptor) :
    AecEffect σ (Except ComError Unit) :=
  match formatFromDescriptor pinputconnection with
  | .error e => { answer := .error e, inst := self, hooks := [] }
  | .ok format =>
      (self.addAuxInput T dwinputid format (initDataOf cbdatasize pbydata)).map
        fun result => result.mapError fun code =>
          { code, message := "AecProcessingObject::add_aux_input failed" }

/-- The ways an `AddAuxiliaryInput` call can end. -/
inductive AddOutcome (T : AecProcessingObject σ) (self : AecApoInstance σ)
    (dwinputid cbdatasize : UInt32) (pbydata : Option (ℕ → UInt8))
    (pinputconnection : Option ConnectionDescriptor) :
    AecEffect σ (Except ComError Unit) → Prop
  | badDescriptor (e : ComError)
      (hdesc : ∀ descriptor wf, pinputconnection = some descriptor →
        ¬ Describes descriptor wf)
      (hcode : e.code.isOk = false) :
      AddOutcome T self dwinputid cbdatasize pbydata pinputconnection
        { answer := .error e, inst := self, hooks := [] }
  | answered (descriptor : ConnectionDescriptor) (wf : WaveFormatExtensible)
      (result : Except HResult Unit) (user : σ)
      (hdesc : pinputconnection = some descriptor)
      (hdescribes : Describes descriptor wf)
      (hhook : T.addAuxInput self.inner.inner dwinputid
        (Format.fromWaveformatexPtr wf) (initDataOf cbdatasize pbydata) =
          (result, user)) :
      AddOutcome T self dwinputid cbdatasize pbydata pinputconnection
        { answer := result.mapError fun code =>
            { code, message := "AecProcessingObject::add_aux_input failed" }
          inst := { inner := { self.inner with inner := user } }
          hooks := [.addAuxInput dwinputid (Format.fromWaveformatexPtr wf)
            (initDataOf cbdatasize pbydata) result] }

theorem aecAddAuxiliaryInput_outcome (T : AecProcessingObject σ)
    (self : AecApoInstance σ) (dwinputid cbdatasize : UInt32)
    (pbydata : Option (ℕ → UInt8))
    (pinputconnection : Option ConnectionDescriptor) :
    AddOutcome T self dwinputid cbdatasize pbydata pinputconnection
      (aecAddAuxiliaryInput T self dwinputid cbdatasize pbydata
        pinputconnection) := by
  cases hdecoded : formatFromDescriptor pinputconnection with
  | error e =>
      simp only [aecAddAuxiliaryInput, hdecoded]
      refine .badDescriptor e ?_ (code_of_formatFromDescriptor hdecoded)
      rintro descriptor wf rfl hdescribes
      rw [formatFromDescriptor_of_describes hdescribes] at hdecoded
      cases hdecoded
  | ok format =>
      obtain ⟨descriptor, wf, hdesc, hdescribes, rfl⟩ :=
        describes_of_formatFromDescriptor hdecoded
      simp only [aecAddAuxiliaryInput, hdecoded]
      exact .answered descriptor wf _ _ hdesc hdescribes rfl

/-- `aec_is_aux_format_supported`. -/
def aecIsAuxFormatSupported (T : AecProcessingObject σ)
    (self : AecApoInstance σ) (prequestedinputformat : Option MediaType) :
    AecEffect σ (Except ComError MediaType) :=
  match formatFromMediaType prequestedinputformat with
  | .error e => { answer := .error e, inst := self, hooks := [] }
  | .ok requestedFormat =>
      (self.isAuxFormatSupported T requestedFormat).map fun
        | .accept => .ok (mediaTypeFromFormat requestedFormat)
        | .suggest alt => .ok (mediaTypeFromFormat alt)
        | .reject => .error
            { code := HResult.apoerrFormatNotSupported
              message :=
                "AecProcessingObject rejected the requested aux format" }

/-- `aec_accept_input`. -/
def aecAcceptInput (T : AecProcessingObject σ) (self : AecApoInstance σ)
    (dwinputid : UInt32) (pinputconnection : Option ConnectionProperty) :
    AecEffect σ Unit :=
  let bail : AecEffect σ Unit := { answer := (), inst := self, hooks := [] }
  match pinputconnection with
  | none => bail
  | some prop =>
      if prop.u32Signature ≠ connectionPropertySignature then
        bail
      else
        match self.lockedFormats with
        | none => bail
        | some formats =>
            if formats.input.channels == 0 || !formats.input.isFloat ||
                formats.input.bitsPerSample != 32 then
              bail
            else
              match checkedMul prop.u32ValidFrameCount.toUInt64
                  formats.input.channels.toUInt64 with
              | none => bail
              | some sampleCount =>
                  self.acceptAuxInput T
                    { id := dwinputid
                      samples := { addr := prop.pBuffer, len := sampleCount }
                      flags := prop.u32BufferFlags }

/-! ## The two realtime entry points -/

/-- The checks that the realtime entry points make on an input property, with
the locked formats and the number of samples they compute. -/
structure Accepted (inst : ApoInstance σ)
    (pinputconnection : Option ConnectionProperty)
    (prop : ConnectionProperty) (formats : LockedFormats) (len : UInt64) :
    Prop where
  connection : pinputconnection = some prop
  signature : prop.u32Signature = connectionPropertySignature
  formats_eq : inst.lockedFormats = some formats
  gate : passesFormatGate formats.input = true
  size : checkedMul prop.u32ValidFrameCount.toUInt64
    formats.input.channels.toUInt64 = some len

section Accept

variable {self : AecApoInstance σ}
    {pinputconnection : Option ConnectionProperty}
    {prop outProp : ConnectionProperty} {formats : LockedFormats}
    {len : UInt64}

theorem aecAcceptInput_of_accepted (T : AecProcessingObject σ)
    (dwinputid : UInt32)
    (h : Accepted self.inner pinputconnection prop formats len) :
    aecAcceptInput T self dwinputid pinputconnection =
      self.acceptAuxInput T
        { id := dwinputid
          samples := { addr := prop.pBuffer, len }
          flags := prop.u32BufferFlags } := by
  obtain ⟨rfl, hsignature, hformats, hgate, hsize⟩ := h
  have hformats' : self.lockedFormats = some formats := hformats
  obtain ⟨hchannels, hfloat, hbits⟩ :=
    (passesFormatGate_iff formats.input).mp hgate
  simp [aecAcceptInput, hsignature, hformats', hchannels, hfloat, hbits, hsize]

theorem aecAcceptInput_of_not_accepted (T : AecProcessingObject σ)
    (dwinputid : UInt32)
    (h : ∀ prop formats len,
      ¬ Accepted self.inner pinputconnection prop formats len) :
    aecAcceptInput T self dwinputid pinputconnection =
      { answer := (), inst := self, hooks := [] } := by
  unfold aecAcceptInput
  split
  next => rfl
  next prop =>
    split
    next => rfl
    next hsignature =>
      split
      next => rfl
      next formats hformats =>
        split
        next => rfl
        next hgate =>
          split
          next => rfl
          next len hsize =>
            have hpasses : passesFormatGate formats.input = true := by
              simpa [passesFormatGate] using hgate
            exact absurd ⟨rfl, not_not.mp hsignature, hformats, hpasses, hsize⟩
              (h prop formats len)

/-- `apo_process` with the property as its only input runs the process hook
on the slice that the checks compute. -/
theorem apoProcess_of_accepted (T : AecProcessingObject σ)
    (h : Accepted self.inner pinputconnection prop formats len)
    (hout : outProp.u32Signature = connectionPropertySignature) :
    ∃ flags, (apoProcess T.toProcessingObject self.inner 1
      (some pinputconnection) 1 (some (some outProp))).hooks =
        [.process
          { samples := { addr := prop.pBuffer, len }
            flags := prop.u32BufferFlags }
          { addr := outProp.pBuffer, len } flags] := by
  obtain ⟨rfl, hsignature, hformats, hgate, hsize⟩ := h
  have hload := ApoInstance.load_of_lockedFormats hformats
  refine ⟨(T.process self.inner.inner
    { samples := { addr := prop.pBuffer, len }
      flags := prop.u32BufferFlags }
    { addr := outProp.pBuffer, len }).1, ?_⟩
  rw [apoProcess_of_connected ⟨rfl, rfl, rfl, rfl, hsignature, hout⟩]
  simp only [Effect.map, processConnection, hformats, hgate, hsize,
    ApoInstance.process_of_locked _ _ hload]
  rfl

theorem processConnection_of_not_accepted (T : AecProcessingObject σ)
    (hsignature : prop.u32Signature = connectionPropertySignature)
    (h : ∀ formats len,
      ¬ Accepted self.inner (some prop) prop formats len) :
    (processConnection T.toProcessingObject self.inner prop outProp).hooks =
      [] := by
  unfold processConnection
  split
  next => rfl
  next formats hformats =>
    split
    next => rfl
    next hgate =>
      split
      next => rfl
      next len hsize =>
        have hpasses : passesFormatGate formats.input = true := by
          simpa using hgate
        exact absurd ⟨rfl, hsignature, hformats, hpasses, hsize⟩
          (h formats len)

theorem apoProcess_of_not_accepted (T : AecProcessingObject σ)
    (outProp : ConnectionProperty)
    (h : ∀ prop formats len,
      ¬ Accepted self.inner pinputconnection prop formats len) :
    (apoProcess T.toProcessingObject self.inner 1 (some pinputconnection) 1
      (some (some outProp))).hooks = [] := by
  by_cases hconnected : ∃ prop out, Connected 1 (some pinputconnection) 1
      (some (some outProp)) prop out
  · obtain ⟨prop, out, hconnected⟩ := hconnected
    rw [apoProcess_of_connected hconnected]
    obtain rfl : pinputconnection = some prop :=
      Option.some.inj hconnected.input
    exact processConnection_of_not_accepted T hconnected.inputSignature
      (h prop)
  · rw [apoProcess_of_not_connected fun prop out hcontra =>
      hconnected ⟨prop, out, hcontra⟩]

/-- What `AcceptInput` owes the engine, compared with `APOProcess` on the same
property as its only input. -/
structure AcceptAgrees (T : AecProcessingObject σ) (before : AecApoInstance σ)
    (dwinputid : UInt32) (pinputconnection : Option ConnectionProperty) :
    Prop where
  /-- It delivers where `APOProcess` would run the process hook. -/
  delivers_iff : ∀ outProp : ConnectionProperty,
    outProp.u32Signature = connectionPropertySignature →
      ((∃ input, .acceptAuxInput input ∈
          (aecAcceptInput T before dwinputid pinputconnection).hooks) ↔
        ∃ input output flags, .process input output flags ∈
          (apoProcess T.toProcessingObject before.inner 1
            (some pinputconnection) 1 (some (some outProp))).hooks)
  /-- It delivers once, under that id, what `APOProcess` would process; the
  user's object is what its hook makes of it. -/
  delivers_same : ∀ outProp : ConnectionProperty,
    outProp.u32Signature = connectionPropertySignature →
    ∀ input output flags, .process input output flags ∈
        (apoProcess T.toProcessingObject before.inner 1
          (some pinputconnection) 1 (some (some outProp))).hooks →
      let delivered : AuxiliaryInputBuffer :=
        { id := dwinputid
          samples := input.samples
          flags := input.flags }
      let e := aecAcceptInput T before dwinputid pinputconnection
      e.hooks = [.acceptAuxInput delivered] ∧
        e.inst.inner.inner = T.acceptAuxInput before.inner.inner delivered
  /-- Where it delivers nothing the echo canceller is as before. -/
  undelivered :
    (aecAcceptInput T before dwinputid pinputconnection).hooks = [] →
      (aecAcceptInput T before dwinputid pinputconnection).inst = before
  /-- It delivers nothing outside `Locked`. -/
  locked : (aecAcceptInput T before dwinputid pinputconnection).hooks ≠ [] →
    before.inner.state.load = .locked
  /-- It touches neither the lifecycle nor the cached formats. -/
  unchanged :
    (aecAcceptInput T before dwinputid pinputconnection).inst.inner.state =
        before.inner.state ∧
      (aecAcceptInput T before dwinputid
        pinputconnection).inst.inner.lockedFormatsCell =
          before.inner.lockedFormatsCell

end Accept

/-- For every echo canceller, every instance, every id and every property, the
two realtime entry points agree. -/
theorem aecAcceptInput_agrees (T : AecProcessingObject σ)
    (self : AecApoInstance σ) (dwinputid : UInt32)
    (pinputconnection : Option ConnectionProperty) :
    AcceptAgrees T self dwinputid pinputconnection := by
  by_cases haccepted : ∃ prop formats len,
      Accepted self.inner pinputconnection prop formats len
  · obtain ⟨prop, formats, len, haccepted⟩ := haccepted
    have haccept := aecAcceptInput_of_accepted T dwinputid haccepted
    constructor
    · intro outProp hout
      obtain ⟨flags, hprocess⟩ := apoProcess_of_accepted T haccepted hout
      rw [haccept, hprocess]
      exact ⟨fun _ => ⟨_, _, _, List.mem_singleton_self _⟩,
        fun _ => ⟨_, List.mem_singleton_self _⟩⟩
    · intro outProp hout input output flags hmem
      obtain ⟨flags', hprocess⟩ := apoProcess_of_accepted T haccepted hout
      rw [hprocess] at hmem
      cases List.mem_singleton.mp hmem
      rw [haccept]
      exact ⟨rfl, rfl⟩
    · intro hnone
      rw [haccept] at hnone
      cases hnone
    · intro _
      exact ApoInstance.load_of_lockedFormats haccepted.formats_eq
    · rw [haccept]
      exact ⟨rfl, rfl⟩
  · have hnone : ∀ prop formats len,
        ¬ Accepted self.inner pinputconnection prop formats len :=
      fun prop formats len h => haccepted ⟨prop, formats, len, h⟩
    have haccept := aecAcceptInput_of_not_accepted T dwinputid hnone
    have hprocess := fun outProp : ConnectionProperty =>
      apoProcess_of_not_accepted T outProp hnone
    constructor
    · intro outProp _
      rw [haccept, hprocess outProp]
      simp
    · intro outProp _ input output flags hmem
      rw [hprocess outProp] at hmem
      cases hmem
    · intro _
      rw [haccept]
    · intro hhooks
      rw [haccept] at hhooks
      exact absurd rfl hhooks
    · rw [haccept]
      exact ⟨rfl, rfl⟩

end TympanApo.Dispatch
