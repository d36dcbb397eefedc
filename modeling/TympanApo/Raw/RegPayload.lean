import TympanApo.Layout
import TympanApo.Raw.ClassFactory
import TympanApo.Raw.RegProperties
import TympanApo.Support.Block

/-!
# The registration properties

`build_registration_properties_with` of `raw/reg_properties.rs`.  The engine
reads as many identifiers from the head of the trailing list as the count field
says, past the declared end of `APO_REG_PROPERTIES`; the size computed for the
allocation has to cover them.
-/

namespace TympanApo.RegProperties

open TympanApo.ComServer (AnyApoInstance)
open TympanApo.Support

/-! ## The size -/

/-- `usize::saturating_sub(1)`. -/
def saturatingPred (n : UInt64) : UInt64 :=
  if n = 0 then 0 else n - 1

/-- `total_size`, with the sizes of `APO_REG_PROPERTIES` and `GUID`. -/
def totalSize (n : UInt64) : Option UInt64 :=
  let base : UInt64 := 1092
  let guid : UInt64 := 16
  match checkedMul (saturatingPred n) guid with
  | none => none
  | some extra => checkedAdd base extra

theorem toNat_saturatingPred (n : UInt64) :
    (saturatingPred n).toNat = n.toNat - 1 := by
  unfold saturatingPred
  split
  next h => rw [h]; rfl
  next h =>
    have hpos : 1 ≤ n := by
      rw [UInt64.le_iff_toNat_le]
      exact Nat.pos_of_ne_zero fun hzero => h (UInt64.toNat_inj.mp hzero)
    exact UInt64.toNat_sub_of_le _ _ hpos

/-- The size covers the base and the identifiers after the first. -/
theorem toNat_totalSize {n total : UInt64} (h : totalSize n = some total) :
    total.toNat = 1092 + (n.toNat - 1) * 16 := by
  simp only [totalSize] at h
  split at h
  · cases h
  next extra hextra =>
    rw [toNat_of_checkedAdd h, toNat_of_checkedMul hextra,
      toNat_saturatingPred]
    rfl

/-- Below `2 ^ 32` identifiers no step of the size overflows. -/
theorem totalSize_of_lt {n : ℕ} (h : n < 2 ^ 32) :
    totalSize (UInt64.ofNat n) =
      some (UInt64.ofNat (1092 + 16 * (n - 1))) := by
  have hpred : (saturatingPred (UInt64.ofNat n)).toNat = n - 1 := by
    rw [toNat_saturatingPred, UInt64.toNat_ofNat_of_lt' (h.trans (by decide))]
  obtain ⟨extra, hextra, hextraNat⟩ :=
    checkedMul_eq_some (a := saturatingPred (UInt64.ofNat n)) (b := 16)
      (by rw [hpred]; change (n - 1) * 16 < 2 ^ 64; omega)
  rw [hpred] at hextraNat
  obtain ⟨total, htotal, htotalNat⟩ :=
    checkedAdd_eq_some (a := 1092) (b := extra)
      (by rw [hextraNat]; change 1092 + (n - 1) * 16 < 2 ^ 64; omega)
  rw [totalSize, hextra]
  refine htotal.trans (congrArg some (UInt64.toNat_inj.mp ?_))
  rw [htotalNat, hextraNat, Nat.mul_comm, UInt64.toNat_ofNat_of_lt'
    (by change 1092 + 16 * (n - 1) < 2 ^ 64; omega)]
  rfl

/-! ## Building the payload -/

/-- The stores into the fields of `APO_REG_PROPERTIES`, each at its offset. -/
def fields (inst : AnyApoInstance) (interfaces : List Guid) :
    List (ℕ × List UInt8) :=
  let name := encodeWideZ 256 inst.T.name
  let copyright := encodeWideZ 256 inst.T.copyright
  [ -- clsid, Flags, szFriendlyName, szCopyrightInfo
    (0, guidBytes inst.T.clsid.toGuid),
    (16, leBytes 4 0),
    (20, wideBytes name.toList),
    (532, wideBytes copyright.toList),
    -- u32MajorVersion, u32MinorVersion
    (1044, leBytes 4 1),
    (1048, leBytes 4 0),
    -- the bounds of the input and of the output connections
    (1052, leBytes 4 1),
    (1056, leBytes 4 1),
    (1060, leBytes 4 1),
    (1064, leBytes 4 1),
    -- u32MaxInstances, u32NumAPOInterfaces
    (1068, leBytes 4 0),
    (1072, leBytes 4 (UInt32.ofNat interfaces.length).toNat)]

/-- `build_registration_properties_with`.  The error paths come before the
first store. -/
def buildRegistrationPropertiesWith (alloc : CoTaskMemAlloc)
    (inst : AnyApoInstance) (interfaces : List Guid) :
    Except ComError Block :=
  match totalSize (UInt64.ofNat interfaces.length) with
  | none => .error
      { code := HResult.eOutofmemory
        message := "APO_REG_PROPERTIES size calculation overflowed" }
  | some total =>
      match alloc total with
      | none => .error
          { code := HResult.eOutofmemory
            message := "CoTaskMemAlloc returned null for APO_REG_PROPERTIES" }
      | some bytes =>
          let raw := Block.alloc total.toNat bytes
          let zeroed := raw.write 0 (List.replicate total.toNat 0)
          let props := Block.writeAll (fields inst interfaces) zeroed
          let head := 1076
          .ok (Block.writeArray guidBytes 16 head interfaces props)

/-! ## The interfaces of the two carriers -/

/-- The identifiers of the interfaces, which come with the Windows bindings. -/
structure InterfaceIds where
  iAudioProcessingObject : Guid
  iAudioProcessingObjectConfiguration : Guid
  iAudioProcessingObjectRT : Guid
  iAudioSystemEffects : Guid
  iAudioSystemEffects2 : Guid
  iAudioSystemEffects3 : Guid
  iApoAcousticEchoCancellation : Guid
  iApoAuxiliaryInputConfiguration : Guid
  iApoAuxiliaryInputRT : Guid

/-- `supported_interfaces`. -/
def supportedInterfaces (iids : InterfaceIds) : List Guid :=
  [iids.iAudioProcessingObject, iids.iAudioProcessingObjectConfiguration,
    iids.iAudioProcessingObjectRT, iids.iAudioSystemEffects,
    iids.iAudioSystemEffects2, iids.iAudioSystemEffects3]

@[simp] theorem length_supportedInterfaces (iids : InterfaceIds) :
    (supportedInterfaces iids).length = 6 :=
  rfl

/-- `aec_supported_interfaces`. -/
def aecSupportedInterfaces (iids : InterfaceIds) : List Guid :=
  [iids.iAudioProcessingObject, iids.iAudioProcessingObjectConfiguration,
    iids.iAudioProcessingObjectRT, iids.iAudioSystemEffects,
    iids.iAudioSystemEffects2, iids.iAudioSystemEffects3,
    iids.iApoAcousticEchoCancellation, iids.iApoAuxiliaryInputConfiguration,
    iids.iApoAuxiliaryInputRT]

@[simp] theorem length_aecSupportedInterfaces (iids : InterfaceIds) :
    (aecSupportedInterfaces iids).length = 9 :=
  rfl

/-! ## Reading the payload -/

/-- The identifier of the class. -/
def readClsid (b : Block) : Clsid :=
  Clsid.ofGuid (guidOfBytes (b.read 0 16))

/-- The units of the text field at an offset. -/
def readField (b : Block) (offset : ℕ) : List UInt16 :=
  unitsOfBytes (b.read offset 512)

/-- As many identifiers from the head of the list as the count field says. -/
def readInterfaces (b : Block) : List Guid :=
  b.readArray guidOfBytes 16 1076 (ofLeBytes (b.read 1072 4))

/-- What a payload owes the engine. -/
structure Payload (inst : AnyApoInstance) (interfaces : List Guid)
    (b : Block) : Prop where
  inBounds : b.InBounds
  clsid : readClsid b = inst.T.clsid
  interfaces : readInterfaces b = interfaces
  friendlyName : readField b 20 = (encodeWideZ 256 inst.T.name).toList
  copyrightInfo : readField b 532 = (encodeWideZ 256 inst.T.copyright).toList
  /-- Both texts end in a zero. -/
  terminated : (readField b 20).getLast? = some 0 ∧
    (readField b 532).getLast? = some 0

section Fields

variable (inst : AnyApoInstance) (interfaces : List Guid)

theorem ordered_fields : Block.Ordered (fields inst interfaces) := by
  simp [Block.Ordered, fields]

/-- The fields end where the list begins. -/
theorem fields_le : ∀ f ∈ fields inst interfaces, f.1 + f.2.length ≤ 1076 := by
  simp [fields]

theorem getLast?_encodeWideZ (s : String) :
    (encodeWideZ 256 s).toList.getLast? = some 0 := by
  rw [List.getLast?_eq_getElem?, Vector.getElem?_toList, Vector.length_toList,
    Vector.getElem?_eq_getElem (by decide),
    getElem_encodeWideZ_last 256 s (by decide)]

/-- The payload built on a block. -/
def built (b : Block) : Block :=
  Block.writeArray guidBytes 16 1076 interfaces
    (Block.writeAll (fields inst interfaces) b)

theorem read_built {f : ℕ × List UInt8} (hf : f ∈ fields inst interfaces)
    (b : Block) : (built inst interfaces b).read f.1 f.2.length = f.2 := by
  rw [built, Block.read_writeArray_of_le (fields_le inst interfaces f hf)]
  exact Block.read_writeAll (ordered_fields inst interfaces) hf

/-- A text is found again where it was stored. -/
theorem readField_built {offset : ℕ} {text : String}
    (hf : (offset, wideBytes (encodeWideZ 256 text).toList) ∈
      fields inst interfaces) (b : Block) :
    readField (built inst interfaces b) offset =
      (encodeWideZ 256 text).toList := by
  have hread := read_built inst interfaces hf b
  rw [length_wideBytes, Vector.length_toList] at hread
  rw [readField, hread, unitsOfBytes_wideBytes]

/-- Whatever the block held, the payload is there when the list fits. -/
theorem payload_built (hcount : interfaces.length < 2 ^ 32) {b : Block}
    (hb : b.InBounds) (hbase : 1076 ≤ b.size)
    (hlist : 1076 + interfaces.length * 16 ≤ b.size) :
    Payload inst interfaces (built inst interfaces b) := by
  have hname : readField (built inst interfaces b) 20 =
      (encodeWideZ 256 inst.T.name).toList :=
    readField_built inst interfaces (by simp [fields]) b
  have hcopyright : readField (built inst interfaces b) 532 =
      (encodeWideZ 256 inst.T.copyright).toList :=
    readField_built inst interfaces (by simp [fields]) b
  refine ⟨?_, ?_, ?_, hname, hcopyright, ?_⟩
  · refine Block.InBounds.writeArray (hb.writeAll fun f hf => ?_)
      length_guidBytes (by rwa [Block.size_writeAll])
    exact (fields_le inst interfaces f hf).trans hbase
  · have hread := read_built inst interfaces
      (f := (0, guidBytes inst.T.clsid.toGuid)) (by simp [fields]) b
    rw [length_guidBytes] at hread
    rw [readClsid, hread, guidOfBytes_guidBytes, Clsid.ofGuid_toGuid]
  · have hread := read_built inst interfaces
      (f := (1072, leBytes 4 (UInt32.ofNat interfaces.length).toNat))
      (by simp [fields]) b
    have hlength : (UInt32.ofNat interfaces.length).toNat =
        interfaces.length := UInt32.toNat_ofNat_of_lt' hcount
    have hlt : interfaces.length < 256 ^ 4 := hcount
    rw [length_leBytes, hlength] at hread
    rw [readInterfaces, hread, ofLeBytes_leBytes, Nat.mod_eq_of_lt hlt]
    rw [built, Block.readArray_writeArray length_guidBytes]
    simp only [guidOfBytes_guidBytes, List.map_id']
  · rw [hname, hcopyright]
    exact ⟨getLast?_encodeWideZ _, getLast?_encodeWideZ _⟩

end Fields

/-- A payload that was built reads back, and has the size computed for it. -/
theorem payload_of_built {alloc : CoTaskMemAlloc} {inst : AnyApoInstance}
    {interfaces : List Guid} {b : Block} (hcount : interfaces.length < 2 ^ 32)
    (hbuilt : buildRegistrationPropertiesWith alloc inst interfaces = .ok b) :
    b.size = 1092 + 16 * (interfaces.length - 1) ∧
      Payload inst interfaces b := by
  rw [buildRegistrationPropertiesWith, totalSize_of_lt hcount] at hbuilt
  split at hbuilt
  next hnone => cases hnone
  next total htotal =>
    have hnat : total.toNat = 1092 + 16 * (interfaces.length - 1) := by
      rw [← Option.some.inj htotal]
      exact UInt64.toNat_ofNat_of_lt'
        (by change 1092 + 16 * (interfaces.length - 1) < 2 ^ 64; omega)
    split at hbuilt
    · cases hbuilt
    next bytes halloc =>
      obtain rfl := Except.ok.inj hbuilt
      have hzeroed : ((Block.alloc total.toNat bytes).write 0
          (List.replicate total.toNat 0)).InBounds :=
        (Block.inBounds_alloc total.toNat bytes).write (by simp [Block.alloc])
      have hbase : 1076 ≤ total.toNat := by omega
      have hlist : 1076 + interfaces.length * 16 ≤ total.toNat := by omega
      refine ⟨?_, payload_built inst interfaces hcount hzeroed hbase hlist⟩
      rw [Block.size_writeArray, Block.size_writeAll]
      exact hnat

/-- For every instance, every list of fewer than `2 ^ 32` identifiers and every
outcome of the allocation: the call fails because the size overflows or the
allocation does, or the payload is inside the allocation and reads back. -/
theorem buildRegistrationPropertiesWith_outcome (alloc : CoTaskMemAlloc)
    (inst : AnyApoInstance) (interfaces : List Guid)
    (hcount : interfaces.length < 2 ^ 32) :
    (∃ e, buildRegistrationPropertiesWith alloc inst interfaces = .error e ∧
      e.code = HResult.eOutofmemory ∧
      ∀ total, totalSize (UInt64.ofNat interfaces.length) = some total →
        alloc total = none) ∨
    (∃ total b, totalSize (UInt64.ofNat interfaces.length) = some total ∧
      buildRegistrationPropertiesWith alloc inst interfaces = .ok b ∧
      b.size = total.toNat ∧ Payload inst interfaces b) := by
  cases hsize : totalSize (UInt64.ofNat interfaces.length) with
  | none =>
      left
      simp only [buildRegistrationPropertiesWith, hsize]
      exact ⟨_, rfl, rfl, fun total htotal => nomatch htotal⟩
  | some total =>
      cases halloc : alloc total with
      | none =>
          left
          simp only [buildRegistrationPropertiesWith, hsize, halloc]
          refine ⟨_, rfl, rfl, fun total' htotal => ?_⟩
          obtain rfl := Option.some.inj htotal
          exact halloc
      | some bytes =>
          right
          have hok : ∃ b, buildRegistrationPropertiesWith alloc inst
              interfaces = .ok b := by
            simp only [buildRegistrationPropertiesWith, hsize, halloc]
            exact ⟨_, rfl⟩
          obtain ⟨b, hbuilt⟩ := hok
          obtain ⟨hb, hpayload⟩ := payload_of_built hcount hbuilt
          have htotal := toNat_totalSize hsize
          rw [UInt64.toNat_ofNat_of_lt' (hcount.trans (by decide)),
            Nat.mul_comm] at htotal
          exact ⟨total, b, rfl, hbuilt, hb.trans htotal.symm, hpayload⟩

/-- Below `2 ^ 32` identifiers only a refused allocation makes the call
fail. -/
theorem buildRegistrationPropertiesWith_isOk_iff (alloc : CoTaskMemAlloc)
    (inst : AnyApoInstance) {interfaces : List Guid}
    (hcount : interfaces.length < 2 ^ 32) :
    (buildRegistrationPropertiesWith alloc inst interfaces).isOk ↔
      (alloc (UInt64.ofNat (1092 + 16 * (interfaces.length - 1)))).isSome := by
  simp only [buildRegistrationPropertiesWith, totalSize_of_lt hcount]
  cases alloc (UInt64.ofNat (1092 + 16 * (interfaces.length - 1))) with
  | none => exact iff_of_false Bool.false_ne_true Bool.false_ne_true
  | some bytes => exact iff_of_true rfl rfl

/-- The fixture with a list of two identifiers, in memory that was not
clean. -/
theorem payload_passthrough :
    let inst : AnyApoInstance := { T := passthrough, inst := .new passthrough }
    let interfaces := [passthrough.clsid.toGuid, passthrough.clsid.toGuid]
    ∃ b, buildRegistrationPropertiesWith (fun _ => some fun _ => 0xCD) inst
      interfaces = .ok b ∧ Payload inst interfaces b := by
  intro inst interfaces
  rcases buildRegistrationPropertiesWith_outcome (fun _ => some fun _ => 0xCD)
    inst interfaces (by decide) with ⟨e, -, -, hnone⟩ | ⟨total, b, -, hok, -, h⟩
  · cases hnone 1108 (by decide)
  · exact ⟨b, hok, h⟩

end TympanApo.RegProperties
