/-!
# `HRESULT` values

The part of `error.rs` that the modelled functions return, and the error
value of the COM bridge: a code together with its message.
-/

namespace TympanApo

/-- COM `HRESULT`; negative values are failures. -/
structure HResult where
  val : Int32
  deriving DecidableEq, Repr

namespace HResult

/-- `0x…_u32 as i32`. -/
def ofBits (bits : UInt32) : HResult :=
  ⟨bits.toInt32⟩

def sOk : HResult := ⟨0⟩

def sFalse : HResult := ⟨1⟩

def ePointer : HResult := ofBits 0x80004003

def eFail : HResult := ofBits 0x80004005

def eOutofmemory : HResult := ofBits 0x8007000E

def eInvalidarg : HResult := ofBits 0x80070057

def classEClassnotavailable : HResult := ofBits 0x80040111

def classENoaggregation : HResult := ofBits 0x80040110

def apoerrInvalidInputData : HResult := ofBits 0x88890001

def apoerrFormatNotSupported : HResult := ofBits 0x88890008

def apoerrNumConnectionsInvalid : HResult := ofBits 0x8889000B

def apoerrNotLocked : HResult := ofBits 0x8889000A

def apoerrAlreadyLocked : HResult := ofBits 0x88890006

/-- `HResult::is_ok`. -/
def isOk (self : HResult) : Bool :=
  decide (0 ≤ self.val)

/-- `HResult::is_err`. -/
def isErr (self : HResult) : Bool :=
  decide (self.val < 0)

theorem isErr_eq_not_isOk (h : HResult) : h.isErr = !h.isOk := by
  simp only [isErr, isOk, Int32.not_le, ← decide_not]

/-- `HResult::ok`: the success codes become `Ok`. -/
def ok (self : HResult) : Except HResult Unit :=
  if self.isOk then .ok () else .error self

end HResult

/-- `windows_core::Error`. -/
structure ComError where
  code : HResult
  message : String
  deriving DecidableEq, Repr

end TympanApo
