import TympanApo.Raw.AecDispatch

/-!
# What the engine is told

`windows_core` hands a returned error to the engine as its code.  A hook
refuses with `Err(code)` for an arbitrary `code`, and nothing keeps that code
from being one of the success codes: the framework then treats the call as
refused and the engine takes it for a success.  Here is when the two views
agree, for the two methods that forward a user's error.
-/

namespace TympanApo.Dispatch

variable {σ τ : Type*}

/-- The `HRESULT` behind a `windows_core::Result<()>`. -/
def engineHResult : Except ComError Unit → HResult
  | .ok () => HResult.sOk
  | .error e => e.code

/-! ## `LockForProcess` -/

/-- The engine is told success if and only if the call left the instance
newly locked. -/
def LockReported (T : ProcessingObject σ) (self : ApoInstance σ)
    (u32NumInputConnections : UInt32)
    (ppInputConnections : Option (Option ConnectionDescriptor))
    (u32NumOutputConnections : UInt32)
    (ppOutputConnections : Option (Option ConnectionDescriptor)) : Prop :=
  let e := lockForProcess T self u32NumInputConnections ppInputConnections
    u32NumOutputConnections ppOutputConnections
  (engineHResult e.answer).isOk = true ↔
    self.state.load ≠ .locked ∧ e.inst.state.load = .locked

/-- The call gets as far as the user's hook, and the hook refuses with a
success code. -/
def LockRefusedAsSuccess (T : ProcessingObject σ) (self : ApoInstance σ)
    (u32NumInputConnections : UInt32)
    (ppInputConnections : Option (Option ConnectionDescriptor))
    (u32NumOutputConnections : UInt32)
    (ppOutputConnections : Option (Option ConnectionDescriptor)) : Prop :=
  ∃ wfIn wfOut code, ArgumentsPass u32NumInputConnections ppInputConnections
      u32NumOutputConnections ppOutputConnections wfIn wfOut ∧
    self.state.load = .initialized ∧
    lockHook T self wfIn wfOut = .error code ∧ code.isOk = true

theorem lockReported_iff (T : ProcessingObject σ) (self : ApoInstance σ)
    (u32NumInputConnections : UInt32)
    (ppInputConnections : Option (Option ConnectionDescriptor))
    (u32NumOutputConnections : UInt32)
    (ppOutputConnections : Option (Option ConnectionDescriptor)) :
    LockReported T self u32NumInputConnections ppInputConnections
        u32NumOutputConnections ppOutputConnections ↔
      ¬ LockRefusedAsSuccess T self u32NumInputConnections ppInputConnections
        u32NumOutputConnections ppOutputConnections := by
  have houtcome := lockForProcess_outcome T self u32NumInputConnections
    ppInputConnections u32NumOutputConnections ppOutputConnections
  unfold LockReported
  generalize lockForProcess T self u32NumInputConnections ppInputConnections
    u32NumOutputConnections ppOutputConnections = e at houtcome
  cases houtcome with
  | badArguments err hargs hcode =>
      constructor
      · rintro - ⟨wfIn, wfOut, -, hpass, -⟩
        exact hargs wfIn wfOut hpass
      · intro _
        simp [engineHResult, hcode]
  | badState wfIn wfOut err hargs hcode hload =>
      constructor
      · rintro - ⟨-, -, -, -, hinit, -⟩
        exact hload hinit
      · intro _
        simp [engineHResult, hcode]
  | refused wfIn wfOut code inner hargs hload hhook =>
      constructor
      · rintro hreported ⟨wfIn', wfOut', code', hpass, -, hhook', hcode⟩
        obtain ⟨rfl, rfl⟩ := hargs.unique hpass
        rw [hhook, Except.error.injEq] at hhook'
        subst hhook'
        have hlocked := (hreported.mp hcode).2
        simp [hload] at hlocked
      · intro hnot
        have hcode : ¬ code.isOk = true := fun hcode =>
          hnot ⟨wfIn, wfOut, code, hargs, hload, hhook, hcode⟩
        simp [engineHResult, hcode, hload]
  | locked wfIn wfOut inner hargs hload hhook =>
      constructor
      · rintro - ⟨wfIn', wfOut', code', hpass, -, hhook', -⟩
        obtain ⟨rfl, rfl⟩ := hargs.unique hpass
        rw [hhook] at hhook'
        cases hhook'
      · intro _
        simp [engineHResult, hload, HResult.sOk, HResult.isOk]

/-! ## `AddAuxiliaryInput` -/

/-- The engine is told success if and only if the user's hook returned
`Ok`. -/
def AddReported (T : AecProcessingObject σ) (self : AecApoInstance σ)
    (dwinputid cbdatasize : UInt32) (pbydata : Option (ℕ → UInt8))
    (pinputconnection : Option ConnectionDescriptor) : Prop :=
  let e := aecAddAuxiliaryInput T self dwinputid cbdatasize pbydata
    pinputconnection
  (engineHResult e.answer).isOk = true ↔
    ∃ id format initData, .addAuxInput id format initData (.ok ()) ∈ e.hooks

/-- The descriptor is decoded, and the hook refuses with a success code. -/
def AddRefusedAsSuccess (T : AecProcessingObject σ) (self : AecApoInstance σ)
    (dwinputid cbdatasize : UInt32) (pbydata : Option (ℕ → UInt8))
    (pinputconnection : Option ConnectionDescriptor) : Prop :=
  ∃ descriptor wf code, pinputconnection = some descriptor ∧
    Describes descriptor wf ∧
    (T.addAuxInput self.inner.inner dwinputid (Format.fromWaveformatexPtr wf)
      (initDataOf cbdatasize pbydata)).1 = .error code ∧
    code.isOk = true

theorem addReported_iff (T : AecProcessingObject σ) (self : AecApoInstance σ)
    (dwinputid cbdatasize : UInt32) (pbydata : Option (ℕ → UInt8))
    (pinputconnection : Option ConnectionDescriptor) :
    AddReported T self dwinputid cbdatasize pbydata pinputconnection ↔
      ¬ AddRefusedAsSuccess T self dwinputid cbdatasize pbydata
        pinputconnection := by
  have houtcome := aecAddAuxiliaryInput_outcome T self dwinputid cbdatasize
    pbydata pinputconnection
  unfold AddReported
  generalize aecAddAuxiliaryInput T self dwinputid cbdatasize pbydata
    pinputconnection = e at houtcome
  cases houtcome with
  | badDescriptor err hdesc hcode =>
      constructor
      · rintro - ⟨descriptor, wf, -, hconnection, hdescribes, -⟩
        exact hdesc descriptor wf hconnection hdescribes
      · intro _
        simp [engineHResult, hcode]
  | answered descriptor wf result user hdesc hdescribes hhook =>
      subst hdesc
      cases result with
      | ok value =>
          constructor
          · rintro - ⟨descriptor', wf', code, heq, hdescribes', hrefused, -⟩
            cases heq
            obtain rfl := hdescribes.unique hdescribes'
            rw [hhook] at hrefused
            cases hrefused
          · intro _
            simp [engineHResult, HResult.sOk, HResult.isOk, Except.mapError]
      | error code =>
          constructor
          · rintro hreported ⟨descriptor', wf', code', heq, hdescribes',
              hrefused, hcode⟩
            cases heq
            obtain rfl := hdescribes.unique hdescribes'
            rw [hhook] at hrefused
            cases hrefused
            simp [engineHResult, Except.mapError, hcode] at hreported
          · intro hnot
            have hcode : ¬ code.isOk = true := fun hcode =>
              hnot ⟨descriptor, wf, code, rfl, hdescribes,
                congrArg Prod.fst hhook, hcode⟩
            simp [engineHResult, Except.mapError, hcode]

/-! ## Both methods -/

/-- For every call of the two methods, the engine's view and the framework's
agree if and only if the hook does not refuse with a success code. -/
theorem engineResult_iff (T : ProcessingObject σ) (self : ApoInstance σ)
    (u32NumInputConnections : UInt32)
    (ppInputConnections : Option (Option ConnectionDescriptor))
    (u32NumOutputConnections : UInt32)
    (ppOutputConnections : Option (Option ConnectionDescriptor))
    (A : AecProcessingObject τ) (aec : AecApoInstance τ)
    (dwinputid cbdatasize : UInt32) (pbydata : Option (ℕ → UInt8))
    (pinputconnection : Option ConnectionDescriptor) :
    (LockReported T self u32NumInputConnections ppInputConnections
        u32NumOutputConnections ppOutputConnections ↔
      ¬ LockRefusedAsSuccess T self u32NumInputConnections
        ppInputConnections u32NumOutputConnections ppOutputConnections) ∧
    (AddReported A aec dwinputid cbdatasize pbydata pinputconnection ↔
      ¬ AddRefusedAsSuccess A aec dwinputid cbdatasize pbydata
        pinputconnection) :=
  ⟨lockReported_iff T self u32NumInputConnections ppInputConnections
      u32NumOutputConnections ppOutputConnections,
    addReported_iff A aec dwinputid cbdatasize pbydata pinputconnection⟩

/-- An APO whose lock hook refuses with `S_FALSE`. -/
def refusingWithSFalse : ProcessingObject Unit :=
  { passthrough with
    lockForProcess := fun user _ _ => (.error HResult.sFalse, user) }

/-- A connection of stereo float32 samples at 48 kHz. -/
def stereoDescriptor : ConnectionDescriptor where
  pFormat := some (mediaTypeFromFormat (.pcmFloat32 48000 2))
  u32Signature := connectionPropertySignature

/-- After `Initialize`, a lock of that APO is rolled back, and the engine
receives `S_FALSE`. -/
theorem not_lockReported_sFalse :
    let self := (ApoInstance.new refusingWithSFalse).initializeInstance.inst
    let e := lockForProcess refusingWithSFalse self 1
      (some (some stereoDescriptor)) 1 (some (some stereoDescriptor))
    engineHResult e.answer = HResult.sFalse ∧
      e.inst.state.load = .initialized ∧
      ¬ LockReported refusingWithSFalse self 1 (some (some stereoDescriptor))
        1 (some (some stereoDescriptor)) := by
  refine ⟨rfl, rfl, ?_⟩
  intro hreported
  have hlocked := (hreported.mp rfl).2
  exact absurd hlocked (by decide)

end TympanApo.Dispatch
