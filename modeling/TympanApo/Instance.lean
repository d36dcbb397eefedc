import TympanApo.Apo
import TympanApo.Realtime.Refcount
import TympanApo.Realtime.State

/-!
# The framework-side instance

`ApoInstance<T>` of `instance.rs`: the user's object, the lifecycle cell, the
COM reference count and the formats cached while the cell is locked.  Each
method returns its answer, the instance it leaves and the user hooks it ran,
in order.  The method `initialize` is `initializeInstance` here, since Lean
reserves the word.
-/

namespace TympanApo

open TympanApo.Realtime

/-- The formats negotiated by a lock. -/
structure LockedFormats where
  input : Format
  output : Format
  deriving DecidableEq, Repr

/-- `ApoInstance<T>` over user states of type `σ`. -/
structure ApoInstance (σ : Type*) where
  inner : σ
  state : StateCell
  refcount : Refcount
  lockedFormatsCell : Option LockedFormats

/-- What a method call does. -/
structure Effect (σ ρ : Type*) where
  answer : ρ
  inst : ApoInstance σ
  hooks : List HookCall

/-- Translate the answer of a call. -/
def Effect.map {σ ρ τ : Type*} (f : ρ → τ) (e : Effect σ ρ) : Effect σ τ where
  answer := f e.answer
  inst := e.inst
  hooks := e.hooks

namespace ApoInstance

variable {σ : Type*}

/-- `ApoInstance::new`. -/
def new (T : ProcessingObject σ) : ApoInstance σ where
  inner := T.new
  state := StateCell.new
  refcount := Refcount.new
  lockedFormatsCell := none

/-- `ApoInstance::add_ref`. -/
def addRef (self : ApoInstance σ) : Effect σ UInt32 where
  answer := self.refcount.addRef.1
  inst := { self with refcount := self.refcount.addRef.2 }
  hooks := []

/-- `ApoInstance::release`. -/
def release (self : ApoInstance σ) : Effect σ UInt32 where
  answer := self.refcount.release.1
  inst := { self with refcount := self.refcount.release.2 }
  hooks := []

/-- `ApoInstance::initialize`. -/
def initializeInstance (self : ApoInstance σ) : Effect σ (Except HResult Unit) :=
  let (result, cell) := self.state.initializeCell
  { answer := result.mapError fun _ => HResult.apoerrAlreadyLocked
    inst := { self with state := cell }
    hooks := [] }

/-- `ApoInstance::is_input_format_supported`. -/
def isInputFormatSupported (T : ProcessingObject σ) (self : ApoInstance σ)
    (format : Format) : Effect σ FormatNegotiation :=
  let (answer, inner) := T.isInputFormatSupported self.inner format
  { answer
    inst := { self with inner }
    hooks := [.isInputFormatSupported format answer] }

/-- `ApoInstance::is_output_format_supported`. -/
def isOutputFormatSupported (T : ProcessingObject σ) (self : ApoInstance σ)
    (format : Format) : Effect σ FormatNegotiation :=
  let (answer, inner) := T.isOutputFormatSupported self.inner format
  { answer
    inst := { self with inner }
    hooks := [.isOutputFormatSupported format answer] }

/-- How `lock_for_process` reports a refused transition. -/
def lockError (err : TransitionError) : HResult :=
  match err.actual with
  | .uninitialized => HResult.apoerrNotLocked
  | .initialized => HResult.eFail -- unreachable in practice
  | .locked => HResult.apoerrAlreadyLocked

/-- `ApoInstance::lock_for_process`. -/
def lockForProcess (T : ProcessingObject σ) (self : ApoInstance σ)
    (input output : Format) : Effect σ (Except HResult Unit) :=
  match self.state.lock with
  | (.error err, cell) =>
      { answer := .error (lockError err)
        inst := { self with state := cell }
        hooks := [] }
  | (.ok (), cell) =>
      match T.lockForProcess self.inner input output with
      | (.ok (), inner) =>
          { answer := .ok ()
            inst := { self with
              inner
              state := cell
              lockedFormatsCell := some { input, output } }
            hooks := [.lockForProcess input output (.ok ())] }
      | (.error e, inner) =>
          -- The result of the rollback is discarded.
          { answer := .error e
            inst := { self with inner, state := cell.unlock.2 }
            hooks := [.lockForProcess input output (.error e)] }

/-- `ApoInstance::unlock_for_process`. -/
def unlockForProcess (T : ProcessingObject σ) (self : ApoInstance σ) :
    Effect σ (Except HResult Unit) :=
  if self.state.load ≠ .locked then
    { answer := .error HResult.apoerrNotLocked
      inst := self
      hooks := [] }
  else
    let inner := T.unlockForProcess self.inner
    let (result, cell) := self.state.unlock
    { answer := result.mapError fun _ => HResult.apoerrNotLocked
      inst := { self with inner, state := cell, lockedFormatsCell := none }
      hooks := [.unlockForProcess] }

/-- `ApoInstance::locked_formats`. -/
def lockedFormats (self : ApoInstance σ) : Option LockedFormats :=
  if self.state.load ≠ .locked then none else self.lockedFormatsCell

/-- `ApoInstance::process`. -/
def process (T : ProcessingObject σ) (self : ApoInstance σ)
    (input : ProcessInput) (output : Slice) :
    Effect σ (Except HResult BufferFlags) :=
  if !self.state.isLocked then
    { answer := .error HResult.apoerrNotLocked
      inst := self
      hooks := [] }
  else
    let (flags, inner) := T.process self.inner input output
    { answer := .ok flags
      inst := { self with inner }
      hooks := [.process input output flags] }

/-- `AnyApoInstance::system_effects`. -/
def systemEffects (T : ProcessingObject σ) (self : ApoInstance σ) :
    Effect σ (List SystemEffect) :=
  let (answer, inner) := T.systemEffects self.inner
  { answer
    inst := { self with inner }
    hooks := [.systemEffects answer] }

/-- `AnyApoInstance::set_system_effect_state`. -/
def setSystemEffectState (T : ProcessingObject σ) (self : ApoInstance σ)
    (id : Clsid) (state : SystemEffectState) : Effect σ Unit where
  answer := ()
  inst := { self with inner := T.setSystemEffectState self.inner id state }
  hooks := [.setSystemEffectState id state]

/-! ## Locking and unlocking by the state held -/

variable {T : ProcessingObject σ} {self : ApoInstance σ}

theorem initializeInstance_of_uninitialized
    (h : self.state.load = .uninitialized) :
    self.initializeInstance =
      { answer := .ok ()
        inst := { self with state := StateCell.holding .initialized }
        hooks := [] } := by
  simp only [initializeInstance, StateCell.initializeCell,
    StateCell.transition_of_load_eq _ h]
  rfl

theorem initializeInstance_of_ne (h : self.state.load ≠ .uninitialized) :
    self.initializeInstance =
      { answer := .error HResult.apoerrAlreadyLocked
        inst := self
        hooks := [] } := by
  simp only [initializeInstance, StateCell.initializeCell,
    StateCell.transition_of_load_ne _ h]
  rfl

/-- A lock outside `Initialized` runs no hook and changes nothing. -/
theorem lockForProcess_of_ne (input output : Format)
    (h : self.state.load ≠ .initialized) :
    self.lockForProcess T input output =
      { answer := .error (lockError
          { expected := .initialized
            attempted := .locked
            actual := self.state.load })
        inst := self
        hooks := [] } := by
  simp only [lockForProcess, StateCell.lock,
    StateCell.transition_of_load_ne _ h]

/-- A lock whose hook succeeds caches the formats. -/
theorem lockForProcess_of_ok {input output : Format} {inner : σ}
    (h : self.state.load = .initialized)
    (hhook : T.lockForProcess self.inner input output = (.ok (), inner)) :
    self.lockForProcess T input output =
      { answer := .ok ()
        inst := { self with
          inner
          state := StateCell.holding .locked
          lockedFormatsCell := some { input, output } }
        hooks := [.lockForProcess input output (.ok ())] } := by
  simp only [lockForProcess, StateCell.lock,
    StateCell.transition_of_load_eq _ h, hhook]

/-- A lock whose hook fails is rolled back. -/
theorem lockForProcess_of_error {input output : Format} {inner : σ}
    {e : HResult} (h : self.state.load = .initialized)
    (hhook : T.lockForProcess self.inner input output = (.error e, inner)) :
    self.lockForProcess T input output =
      { answer := .error e
        inst := { self with
          inner
          state := StateCell.holding .initialized }
        hooks := [.lockForProcess input output (.error e)] } := by
  have hunlock : (StateCell.holding .locked).unlock =
      (.ok (), StateCell.holding .initialized) :=
    StateCell.transition_of_load_eq _ (StateCell.load_holding _)
  simp only [lockForProcess, StateCell.lock,
    StateCell.transition_of_load_eq _ h, hhook, hunlock]

theorem unlockForProcess_of_ne (h : self.state.load ≠ .locked) :
    self.unlockForProcess T =
      { answer := .error HResult.apoerrNotLocked
        inst := self
        hooks := [] } :=
  if_pos h

/-- An unlock in `Locked` runs the hook, clears the cache and succeeds: the
transition back cannot fail. -/
theorem unlockForProcess_of_locked (h : self.state.load = .locked) :
    self.unlockForProcess T =
      { answer := .ok ()
        inst := { self with
          inner := T.unlockForProcess self.inner
          state := StateCell.holding .initialized
          lockedFormatsCell := none }
        hooks := [.unlockForProcess] } := by
  rw [unlockForProcess, if_neg (not_not_intro h)]
  simp only [StateCell.unlock, StateCell.transition_of_load_eq _ h]
  rfl

theorem lockedFormats_of_ne (h : self.state.load ≠ .locked) :
    self.lockedFormats = none :=
  if_pos h

theorem lockedFormats_of_locked (h : self.state.load = .locked) :
    self.lockedFormats = self.lockedFormatsCell :=
  if_neg (not_not_intro h)

/-- Formats are only handed out while the cell is locked. -/
theorem load_of_lockedFormats {formats : LockedFormats}
    (h : self.lockedFormats = some formats) : self.state.load = .locked := by
  by_contra hne
  rw [lockedFormats_of_ne hne] at h
  cases h

theorem process_of_ne (input : ProcessInput) (output : Slice)
    (h : self.state.load ≠ .locked) :
    self.process T input output =
      { answer := .error HResult.apoerrNotLocked
        inst := self
        hooks := [] } := by
  simp [process, StateCell.isLocked, h]

theorem process_of_locked (input : ProcessInput) (output : Slice)
    (h : self.state.load = .locked) :
    self.process T input output =
      { answer := .ok (T.process self.inner input output).1
        inst := { self with inner := (T.process self.inner input output).2 }
        hooks := [.process input output
          (T.process self.inner input output).1] } := by
  simp [process, StateCell.isLocked, h]

end ApoInstance

end TympanApo
