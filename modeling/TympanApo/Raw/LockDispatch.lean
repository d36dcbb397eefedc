import TympanApo.Raw.Dispatch

/-!
# Outcomes of `LockForProcess`

The dispatch body checks the counts, the two arrays and both descriptors; the
instance then moves its cell, runs the user's hook and rolls the cell back if
the hook refuses.  Here all exits are put together: which calls succeed, what
a success leaves behind, and that every other exit leaves the state and the
cached formats as they were.
-/

namespace TympanApo.Dispatch

variable {σ : Type*}

/-! ## Argument checks -/

/-- A descriptor that passes every check of `format_from_descriptor`, with
the wave block behind it. -/
structure Describes (descriptor : ConnectionDescriptor)
    (wf : WaveFormatExtensible) : Prop where
  signature : descriptor.u32Signature = connectionPropertySignature
  mediaType : ∃ mediaType, descriptor.pFormat = some mediaType ∧
    mediaType.getAudioFormat = some wf

theorem Describes.unique {descriptor : ConnectionDescriptor}
    {wf wf' : WaveFormatExtensible} (h : Describes descriptor wf)
    (h' : Describes descriptor wf') : wf = wf' := by
  obtain ⟨mediaType, hmedia, hwave⟩ := h.mediaType
  obtain ⟨mediaType', hmedia', hwave'⟩ := h'.mediaType
  rw [hmedia, Option.some.injEq] at hmedia'
  rw [← hmedia', hwave, Option.some.injEq] at hwave'
  exact hwave'

theorem formatFromDescriptor_of_describes {descriptor : ConnectionDescriptor}
    {wf : WaveFormatExtensible} (h : Describes descriptor wf) :
    formatFromDescriptor (some descriptor) =
      .ok (Format.fromWaveformatexPtr wf) := by
  obtain ⟨hsignature, mediaType, hmedia, hwave⟩ := h
  simp [formatFromDescriptor, hsignature, hmedia, hwave]

/-- Only such a descriptor is decoded. -/
theorem describes_of_formatFromDescriptor
    {desc : Option ConnectionDescriptor} {format : Format}
    (h : formatFromDescriptor desc = .ok format) :
    ∃ descriptor wf, desc = some descriptor ∧ Describes descriptor wf ∧
      format = Format.fromWaveformatexPtr wf := by
  rcases desc with _ | descriptor
  · cases h
  · simp only [formatFromDescriptor] at h
    split at h
    next => cases h
    next hsignature =>
      split at h
      next => cases h
      next mediaType hmedia =>
        split at h
        next => cases h
        next wf hwave =>
          cases h
          exact ⟨descriptor, wf, rfl,
            ⟨not_not.mp hsignature, mediaType, hmedia, hwave⟩, rfl⟩

/-- Every refusal of a descriptor is reported with a failure code. -/
theorem code_of_formatFromDescriptor {desc : Option ConnectionDescriptor}
    {e : ComError} (h : formatFromDescriptor desc = .error e) :
    e.code.isOk = false := by
  rcases desc with _ | descriptor
  · cases h
    rfl
  · simp only [formatFromDescriptor] at h
    split at h
    next =>
      cases h
      rfl
    next =>
      split at h
      next =>
        cases h
        rfl
      next =>
        split at h
        next =>
          cases h
          rfl
        next => cases h

/-- All argument checks of a `LockForProcess` call pass, with the two wave
blocks it decodes. -/
structure ArgumentsPass (u32NumInputConnections : UInt32)
    (ppInputConnections : Option (Option ConnectionDescriptor))
    (u32NumOutputConnections : UInt32)
    (ppOutputConnections : Option (Option ConnectionDescriptor))
    (wfIn wfOut : WaveFormatExtensible) : Prop where
  inputs : u32NumInputConnections = 1
  outputs : u32NumOutputConnections = 1
  input : ∃ descriptor, ppInputConnections = some (some descriptor) ∧
    Describes descriptor wfIn
  output : ∃ descriptor, ppOutputConnections = some (some descriptor) ∧
    Describes descriptor wfOut

/-- The formats of two decoded wave blocks. -/
def decodedFormats (wfIn wfOut : WaveFormatExtensible) : LockedFormats where
  input := Format.fromWaveformatexPtr wfIn
  output := Format.fromWaveformatexPtr wfOut

section Lock

variable {T : ProcessingObject σ} {self : ApoInstance σ}
    {u32NumInputConnections u32NumOutputConnections : UInt32}
    {ppInputConnections ppOutputConnections :
      Option (Option ConnectionDescriptor)}
    {wfIn wfOut : WaveFormatExtensible}

/-- The hook's answer to the decoded formats. -/
def lockHook (T : ProcessingObject σ) (self : ApoInstance σ)
    (wfIn wfOut : WaveFormatExtensible) : Except HResult Unit :=
  (T.lockForProcess self.inner (Format.fromWaveformatexPtr wfIn)
    (Format.fromWaveformatexPtr wfOut)).1

theorem lockForProcess_of_argumentsPass
    (h : ArgumentsPass u32NumInputConnections ppInputConnections
      u32NumOutputConnections ppOutputConnections wfIn wfOut) :
    lockForProcess T self u32NumInputConnections ppInputConnections
        u32NumOutputConnections ppOutputConnections =
      (self.lockForProcess T (Format.fromWaveformatexPtr wfIn)
        (Format.fromWaveformatexPtr wfOut)).map fun result =>
          result.mapError fun code =>
            { code, message := "ProcessingObject::lock_for_process failed" } := by
  obtain ⟨rfl, rfl, ⟨inputDesc, rfl, hin⟩, ⟨outputDesc, rfl, hout⟩⟩ := h
  simp [lockForProcess, formatFromDescriptor_of_describes hin,
    formatFromDescriptor_of_describes hout]

/-- An argument check that fails is reported and leaves the instance alone. -/
theorem lockForProcess_of_not_argumentsPass (T : ProcessingObject σ)
    (self : ApoInstance σ)
    (h : ∀ wfIn wfOut, ¬ ArgumentsPass u32NumInputConnections
      ppInputConnections u32NumOutputConnections ppOutputConnections
      wfIn wfOut) :
    ∃ e, e.code.isOk = false ∧
      lockForProcess T self u32NumInputConnections ppInputConnections
        u32NumOutputConnections ppOutputConnections =
      { answer := .error e, inst := self, hooks := [] } := by
  unfold lockForProcess
  split
  next => exact ⟨_, rfl, rfl⟩
  next hcounts =>
    rw [not_or, not_not, not_not] at hcounts
    split
    next inputDesc outputDesc =>
      split
      next e hinput => exact ⟨e, code_of_formatFromDescriptor hinput, rfl⟩
      next inputFormat hinput =>
        split
        next e houtput => exact ⟨e, code_of_formatFromDescriptor houtput, rfl⟩
        next outputFormat houtput =>
          obtain ⟨inputDescriptor, wfIn, rfl, hin, -⟩ :=
            describes_of_formatFromDescriptor hinput
          obtain ⟨outputDescriptor, wfOut, rfl, hout, -⟩ :=
            describes_of_formatFromDescriptor houtput
          exact absurd ⟨hcounts.1, hcounts.2, ⟨_, rfl, hin⟩, ⟨_, rfl, hout⟩⟩
            (h wfIn wfOut)
    next => exact ⟨_, rfl, rfl⟩

/-- The ways a `LockForProcess` call can end. -/
inductive LockOutcome (T : ProcessingObject σ) (self : ApoInstance σ)
    (u32NumInputConnections : UInt32)
    (ppInputConnections : Option (Option ConnectionDescriptor))
    (u32NumOutputConnections : UInt32)
    (ppOutputConnections : Option (Option ConnectionDescriptor)) :
    Effect σ (Except ComError Unit) → Prop
  | badArguments (e : ComError)
      (hargs : ∀ wfIn wfOut, ¬ ArgumentsPass u32NumInputConnections
        ppInputConnections u32NumOutputConnections ppOutputConnections
        wfIn wfOut)
      (hcode : e.code.isOk = false) :
      LockOutcome T self u32NumInputConnections ppInputConnections
        u32NumOutputConnections ppOutputConnections
        { answer := .error e, inst := self, hooks := [] }
  | badState (wfIn wfOut : WaveFormatExtensible) (e : ComError)
      (hargs : ArgumentsPass u32NumInputConnections ppInputConnections
        u32NumOutputConnections ppOutputConnections wfIn wfOut)
      (hcode : e.code.isOk = false)
      (hload : self.state.load ≠ .initialized) :
      LockOutcome T self u32NumInputConnections ppInputConnections
        u32NumOutputConnections ppOutputConnections
        { answer := .error e, inst := self, hooks := [] }
  | refused (wfIn wfOut : WaveFormatExtensible) (code : HResult) (inner : σ)
      (hargs : ArgumentsPass u32NumInputConnections ppInputConnections
        u32NumOutputConnections ppOutputConnections wfIn wfOut)
      (hload : self.state.load = .initialized)
      (hhook : lockHook T self wfIn wfOut = .error code) :
      LockOutcome T self u32NumInputConnections ppInputConnections
        u32NumOutputConnections ppOutputConnections
        { answer := .error
            { code, message := "ProcessingObject::lock_for_process failed" }
          inst := { self with inner }
          hooks := [.lockForProcess (Format.fromWaveformatexPtr wfIn)
            (Format.fromWaveformatexPtr wfOut) (.error code)] }
  | locked (wfIn wfOut : WaveFormatExtensible) (inner : σ)
      (hargs : ArgumentsPass u32NumInputConnections ppInputConnections
        u32NumOutputConnections ppOutputConnections wfIn wfOut)
      (hload : self.state.load = .initialized)
      (hhook : lockHook T self wfIn wfOut = .ok ()) :
      LockOutcome T self u32NumInputConnections ppInputConnections
        u32NumOutputConnections ppOutputConnections
        { answer := .ok ()
          inst := { self with
            inner
            state := Realtime.StateCell.holding .locked
            lockedFormatsCell := some (decodedFormats wfIn wfOut) }
          hooks := [.lockForProcess (Format.fromWaveformatexPtr wfIn)
            (Format.fromWaveformatexPtr wfOut) (.ok ())] }

/-- The cell after a rollback is the cell before the lock. -/
theorem holding_initialized_eq (h : self.state.load = .initialized) :
    Realtime.StateCell.holding .initialized = self.state := by
  rw [← h]
  exact (Realtime.StateCell.eq_holding_load self.state).symm

theorem lockForProcess_outcome (T : ProcessingObject σ)
    (self : ApoInstance σ) (u32NumInputConnections : UInt32)
    (ppInputConnections : Option (Option ConnectionDescriptor))
    (u32NumOutputConnections : UInt32)
    (ppOutputConnections : Option (Option ConnectionDescriptor)) :
    LockOutcome T self u32NumInputConnections ppInputConnections
      u32NumOutputConnections ppOutputConnections
      (lockForProcess T self u32NumInputConnections ppInputConnections
        u32NumOutputConnections ppOutputConnections) := by
  by_cases hargs : ∃ wfIn wfOut, ArgumentsPass u32NumInputConnections
      ppInputConnections u32NumOutputConnections ppOutputConnections
      wfIn wfOut
  · obtain ⟨wfIn, wfOut, hargs⟩ := hargs
    rw [lockForProcess_of_argumentsPass hargs]
    by_cases hload : self.state.load = .initialized
    · cases hhook : T.lockForProcess self.inner
          (Format.fromWaveformatexPtr wfIn)
          (Format.fromWaveformatexPtr wfOut) with
      | mk result inner =>
          cases result with
          | ok value =>
              rw [ApoInstance.lockForProcess_of_ok hload hhook]
              exact .locked wfIn wfOut inner hargs hload
                (congrArg Prod.fst hhook)
          | error code =>
              rw [ApoInstance.lockForProcess_of_error hload hhook,
                holding_initialized_eq hload]
              exact .refused wfIn wfOut code inner hargs hload
                (congrArg Prod.fst hhook)
    · rw [ApoInstance.lockForProcess_of_ne _ _ hload]
      refine .badState wfIn wfOut _ hargs ?_ hload
      cases hstate : self.state.load with
      | uninitialized => rfl
      | initialized => exact absurd hstate hload
      | locked => rfl
  · have hnone : ∀ wfIn wfOut, ¬ ArgumentsPass u32NumInputConnections
        ppInputConnections u32NumOutputConnections ppOutputConnections
        wfIn wfOut := fun wfIn wfOut h => hargs ⟨wfIn, wfOut, h⟩
    obtain ⟨e, hcode, heffect⟩ := lockForProcess_of_not_argumentsPass
      T self hnone
    rw [heffect]
    exact .badArguments e hnone hcode

/-! ## All exits together -/

/-- What a `LockForProcess` call with effect `e` owes the engine. -/
structure LockContract (T : ProcessingObject σ) (before : ApoInstance σ)
    (u32NumInputConnections : UInt32)
    (ppInputConnections : Option (Option ConnectionDescriptor))
    (u32NumOutputConnections : UInt32)
    (ppOutputConnections : Option (Option ConnectionDescriptor))
    (e : Effect σ (Except ComError Unit)) : Prop where
  /-- It succeeds when the arguments, the state and the hook all allow it. -/
  ok_iff : e.answer = .ok () ↔ ∃ wfIn wfOut,
    ArgumentsPass u32NumInputConnections ppInputConnections
      u32NumOutputConnections ppOutputConnections wfIn wfOut ∧
    before.state.load = .initialized ∧ lockHook T before wfIn wfOut = .ok ()
  /-- A success leaves the instance locked with the decoded formats. -/
  locked : ∀ wfIn wfOut, e.answer = .ok () →
    ArgumentsPass u32NumInputConnections ppInputConnections
      u32NumOutputConnections ppOutputConnections wfIn wfOut →
    e.inst.state.load = .locked ∧
      e.inst.lockedFormats = some (decodedFormats wfIn wfOut)
  /-- Any other exit leaves the state and the cached formats alone. -/
  unchanged : e.answer ≠ .ok () → (∃ err, e.answer = .error err) ∧
    e.inst.state = before.state ∧
    e.inst.lockedFormatsCell = before.lockedFormatsCell
  /-- The hook runs at most once, and only past all the checks. -/
  hooks : e.hooks = [] ∨ ∃ wfIn wfOut,
    ArgumentsPass u32NumInputConnections ppInputConnections
      u32NumOutputConnections ppOutputConnections wfIn wfOut ∧
    before.state.load = .initialized ∧
    e.hooks = [.lockForProcess (Format.fromWaveformatexPtr wfIn)
      (Format.fromWaveformatexPtr wfOut) (lockHook T before wfIn wfOut)]

/-- The arguments determine the wave blocks. -/
theorem ArgumentsPass.unique {wfIn' wfOut' : WaveFormatExtensible}
    (h : ArgumentsPass u32NumInputConnections ppInputConnections
      u32NumOutputConnections ppOutputConnections wfIn wfOut)
    (h' : ArgumentsPass u32NumInputConnections ppInputConnections
      u32NumOutputConnections ppOutputConnections wfIn' wfOut') :
    wfIn = wfIn' ∧ wfOut = wfOut' := by
  obtain ⟨-, -, ⟨inputDesc, rfl, hin⟩, ⟨outputDesc, rfl, hout⟩⟩ := h
  obtain ⟨-, -, ⟨inputDesc', heqIn, hin'⟩, ⟨outputDesc', heqOut, hout'⟩⟩ := h'
  cases heqIn
  cases heqOut
  exact ⟨hin.unique hin', hout.unique hout'⟩

theorem LockOutcome.contract {e : Effect σ (Except ComError Unit)}
    (h : LockOutcome T self u32NumInputConnections ppInputConnections
      u32NumOutputConnections ppOutputConnections e) :
    LockContract T self u32NumInputConnections ppInputConnections
      u32NumOutputConnections ppOutputConnections e := by
  cases h with
  | badArguments err hargs hcode =>
      refine ⟨⟨nofun, ?_⟩, nofun, fun _ => ⟨⟨err, rfl⟩, rfl, rfl⟩, .inl rfl⟩
      rintro ⟨wfIn, wfOut, hpass, -⟩
      exact absurd hpass (hargs wfIn wfOut)
  | badState wfIn wfOut err hargs hcode hload =>
      refine ⟨⟨nofun, ?_⟩, nofun, fun _ => ⟨⟨err, rfl⟩, rfl, rfl⟩, .inl rfl⟩
      rintro ⟨-, -, -, hinit, -⟩
      exact absurd hinit hload
  | refused wfIn wfOut code inner hargs hload hhook =>
      refine ⟨⟨nofun, ?_⟩, nofun, fun _ => ⟨⟨_, rfl⟩, rfl, rfl⟩,
        .inr ⟨wfIn, wfOut, hargs, hload, ?_⟩⟩
      · rintro ⟨wfIn', wfOut', hpass, -, hok⟩
        obtain ⟨rfl, rfl⟩ := hargs.unique hpass
        rw [hhook] at hok
        cases hok
      · rw [hhook]
  | locked wfIn wfOut inner hargs hload hhook =>
      refine ⟨⟨fun _ => ⟨wfIn, wfOut, hargs, hload, hhook⟩, fun _ => rfl⟩, ?_,
        fun hne => absurd rfl hne, .inr ⟨wfIn, wfOut, hargs, hload, ?_⟩⟩
      · intro wfIn' wfOut' _ hpass
        obtain ⟨rfl, rfl⟩ := hargs.unique hpass
        refine ⟨Realtime.StateCell.load_holding _, ?_⟩
        exact ApoInstance.lockedFormats_of_locked
          (Realtime.StateCell.load_holding _)
      · rw [hhook]

end Lock

/-- Every `LockForProcess` call on every instance keeps the contract. -/
theorem lockForProcess_contract (T : ProcessingObject σ)
    (self : ApoInstance σ) (u32NumInputConnections : UInt32)
    (ppInputConnections : Option (Option ConnectionDescriptor))
    (u32NumOutputConnections : UInt32)
    (ppOutputConnections : Option (Option ConnectionDescriptor)) :
    LockContract T self u32NumInputConnections ppInputConnections
      u32NumOutputConnections ppOutputConnections
      (lockForProcess T self u32NumInputConnections ppInputConnections
        u32NumOutputConnections ppOutputConnections) :=
  (lockForProcess_outcome T self u32NumInputConnections ppInputConnections
    u32NumOutputConnections ppOutputConnections).contract

end TympanApo.Dispatch
