import TympanApo.Instance

/-!
# The echo-cancellation extension

`aec/mod.rs`: the hooks an echo canceller adds to a processing object, and
`AecApoInstance<T>`, which wraps an ordinary instance and reaches the user's
object through it.  The methods of `AnyApoInstance` delegate to the wrapped
instance, so they are those of `ApoInstance` on `inner`.
-/

namespace TympanApo

/-- `AuxiliaryInputBuffer`. -/
structure AuxiliaryInputBuffer where
  id : UInt32
  samples : Slice
  flags : BufferFlags
  deriving DecidableEq, Repr

/-- `AecProcessingObject`. -/
structure AecProcessingObject (σ : Type*) extends ProcessingObject σ where
  addAuxInput : σ → UInt32 → Format → List UInt8 → Except HResult Unit × σ :=
    fun user _ _ _ => (.ok (), user)
  removeAuxInput : σ → UInt32 → σ := fun user _ => user
  isAuxFormatSupported : σ → Format → FormatNegotiation × σ :=
    isInputFormatSupported
  acceptAuxInput : σ → AuxiliaryInputBuffer → σ := fun user _ => user

/-- A call of one of the hooks an echo canceller adds, with what it
returned. -/
inductive AecHookCall
  | addAuxInput (id : UInt32) (format : Format) (initData : List UInt8)
      (result : Except HResult Unit)
  | removeAuxInput (id : UInt32)
  | isAuxFormatSupported (format : Format) (answer : FormatNegotiation)
  | acceptAuxInput (input : AuxiliaryInputBuffer)

/-- `AecApoInstance<T>` over user states of type `σ`. -/
structure AecApoInstance (σ : Type*) where
  inner : ApoInstance σ

/-- What a call on an echo canceller does. -/
structure AecEffect (σ ρ : Type*) where
  answer : ρ
  inst : AecApoInstance σ
  hooks : List AecHookCall

/-- Translate the answer of a call. -/
def AecEffect.map {σ ρ τ : Type*} (f : ρ → τ) (e : AecEffect σ ρ) :
    AecEffect σ τ where
  answer := f e.answer
  inst := e.inst
  hooks := e.hooks

namespace AecApoInstance

variable {σ : Type*}

/-- `AecApoInstance::new`. -/
def new (T : AecProcessingObject σ) : AecApoInstance σ where
  inner := ApoInstance.new T.toProcessingObject

/-- `AecApoInstance::locked_formats`. -/
def lockedFormats (self : AecApoInstance σ) : Option LockedFormats :=
  self.inner.lockedFormats

/-- `AecApoInstance::add_aux_input`. -/
def addAuxInput (T : AecProcessingObject σ) (self : AecApoInstance σ)
    (id : UInt32) (format : Format) (initData : List UInt8) :
    AecEffect σ (Except HResult Unit) :=
  let (result, user) := T.addAuxInput self.inner.inner id format initData
  { answer := result
    inst := { inner := { self.inner with inner := user } }
    hooks := [.addAuxInput id format initData result] }

/-- `AecApoInstance::remove_aux_input`. -/
def removeAuxInput (T : AecProcessingObject σ) (self : AecApoInstance σ)
    (id : UInt32) : AecEffect σ Unit where
  answer := ()
  inst :=
    { inner := { self.inner with
        inner := T.removeAuxInput self.inner.inner id } }
  hooks := [.removeAuxInput id]

/-- `AecApoInstance::is_aux_format_supported`. -/
def isAuxFormatSupported (T : AecProcessingObject σ)
    (self : AecApoInstance σ) (format : Format) :
    AecEffect σ FormatNegotiation :=
  let (answer, user) := T.isAuxFormatSupported self.inner.inner format
  { answer
    inst := { inner := { self.inner with inner := user } }
    hooks := [.isAuxFormatSupported format answer] }

/-- `AecApoInstance::accept_aux_input`. -/
def acceptAuxInput (T : AecProcessingObject σ) (self : AecApoInstance σ)
    (input : AuxiliaryInputBuffer) : AecEffect σ Unit where
  answer := ()
  inst :=
    { inner := { self.inner with
        inner := T.acceptAuxInput self.inner.inner input } }
  hooks := [.acceptAuxInput input]

end AecApoInstance

end TympanApo
