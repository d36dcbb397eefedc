/-!
# Class identifiers

`Clsid` and the `GUID` of the Windows bindings have the same four fields; the
bridge copies one into the other field by field.
-/

namespace TympanApo

/-- `windows_core::GUID`. -/
structure Guid where
  data1 : UInt32
  data2 : UInt16
  data3 : UInt16
  data4 : Vector UInt8 8
  deriving DecidableEq, Repr

/-- COM class identifier. -/
structure Clsid where
  data1 : UInt32
  data2 : UInt16
  data3 : UInt16
  data4 : Vector UInt8 8
  deriving DecidableEq, Repr

/-- `From<GUID> for Clsid`. -/
def Clsid.ofGuid (g : Guid) : Clsid where
  data1 := g.data1
  data2 := g.data2
  data3 := g.data3
  data4 := g.data4

/-- `From<Clsid> for GUID`. -/
def Clsid.toGuid (c : Clsid) : Guid where
  data1 := c.data1
  data2 := c.data2
  data3 := c.data3
  data4 := c.data4

@[simp] theorem Clsid.ofGuid_toGuid (c : Clsid) : Clsid.ofGuid c.toGuid = c :=
  rfl

@[simp] theorem Clsid.toGuid_ofGuid (g : Guid) : (Clsid.ofGuid g).toGuid = g :=
  rfl

end TympanApo
