import TympanApo.Buffer
import TympanApo.Error
import TympanApo.Format

/-!
# The user's processing object

The trait of `apo.rs` as a structure of hooks over a type of user states.  A
user state stands for everything the hooks can read or write: the user's
object, with its interior mutability, and the samples behind the slices it is
handed.  Every hook is therefore a function of that state, and the trait's
default methods are the defaults of the fields.
-/

namespace TympanApo

/-- Per-buffer input handed to the process hook. -/
structure ProcessInput where
  samples : Slice
  flags : BufferFlags
  deriving DecidableEq, Repr

/-- On/off state of a system effect. -/
inductive SystemEffectState
  | off
  | on
  deriving DecidableEq, Repr

/-- One advertised system effect. -/
structure SystemEffect where
  id : Clsid
  controllable : Bool
  state : SystemEffectState
  deriving DecidableEq, Repr

/-- Category of an APO. -/
inductive ApoCategory
  | sfx
  | mfx
  | efx
  deriving DecidableEq, Repr

/-- `default_float32_negotiation`. -/
def defaultFloat32Negotiation (format : Format) : FormatNegotiation :=
  if format.isFloat && format.bitsPerSample == 32 then
    .accept
  else
    .suggest (Format.pcmFloat32 format.sampleRate format.channels)

/-- `ProcessingObject`. -/
structure ProcessingObject (σ : Type*) where
  clsid : Clsid
  name : String
  copyright : String
  category : ApoCategory
  new : σ
  isInputFormatSupported : σ → Format → FormatNegotiation × σ :=
    fun user format => (defaultFloat32Negotiation format, user)
  isOutputFormatSupported : σ → Format → FormatNegotiation × σ :=
    fun user format => (defaultFloat32Negotiation format, user)
  systemEffects : σ → List SystemEffect × σ := fun user => ([], user)
  setSystemEffectState : σ → Clsid → SystemEffectState → σ :=
    fun user _ _ => user
  lockForProcess : σ → Format → Format → Except HResult Unit × σ :=
    fun user _ _ => (.ok (), user)
  unlockForProcess : σ → σ := fun user => user
  process : σ → ProcessInput → Slice → BufferFlags × σ

/-- The test fixture `Passthrough`, which keeps no state of its own. -/
def passthrough : ProcessingObject Unit where
  clsid := Clsid.ofGuid
    { data1 := 0xCAFEBABE
      data2 := 0xDEAD
      data3 := 0xBEEF
      data4 := #v[0x12, 0x34, 0x56, 0x78, 0x9A, 0xBC, 0xDE, 0xF0] }
  name := "tympan-apo passthrough"
  copyright := "test fixture"
  category := .sfx
  new := ()
  process := fun user input _ => (input.flags, user)

/-- A call of one of the user's hooks, with what the hook returned. -/
inductive HookCall
  | isInputFormatSupported (format : Format) (answer : FormatNegotiation)
  | isOutputFormatSupported (format : Format) (answer : FormatNegotiation)
  | systemEffects (answer : List SystemEffect)
  | setSystemEffectState (id : Clsid) (state : SystemEffectState)
  | lockForProcess (input output : Format) (result : Except HResult Unit)
  | unlockForProcess
  | process (input : ProcessInput) (output : Slice) (flags : BufferFlags)

end TympanApo
