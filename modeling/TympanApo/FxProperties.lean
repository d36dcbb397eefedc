import TympanApo.Raw.Hive

/-!
# Endpoint bindings

`fx_properties.rs`: the audio engine finds the APO of an endpoint in a value
under the `FxProperties` key of the endpoint.  The key is named after the kind
and the identifier of the endpoint, the value after the property, and the data
of the value is the class identifier.
-/

namespace TympanApo.FxProperties

open TympanApo.Support
open TympanApo.Win32

/-! ## Paths, names and payloads -/

inductive EndpointKind
  | capture
  | render
  deriving DecidableEq, Repr

/-- `EndpointKind::as_str`. -/
def EndpointKind.asStr : EndpointKind → String
  | .capture => "Capture"
  | .render => "Render"

/-- `fx_properties_key_path`. -/
def fxPropertiesKeyPath (kind : EndpointKind) (endpointId : Clsid) : String :=
  "SOFTWARE\\Microsoft\\Windows\\CurrentVersion\\MMDevices\\Audio\\" ++
    kind.asStr ++ "\\" ++ endpointId.display ++ "\\FxProperties"

/-- `fx_property_value_name`. -/
def fxPropertyValueName (fmtid : Clsid) (pid : UInt32) : String :=
  fmtid.display ++ "," ++ toString pid.toNat

/-- `buf[start..start + src.len()].copy_from_slice(src)`. -/
def copyFromSlice (start : ℕ) (src buf : List UInt8) : List UInt8 :=
  buf.take start ++ src ++ buf.drop (start + src.length)

/-- `serialize_clsid_property`. -/
def serializeClsidProperty (clsid : Clsid) : List UInt8 :=
  let vtClsid := 72
  let buf := List.replicate 24 0
  let buf := copyFromSlice 0 (leBytes 4 vtClsid) buf
  let buf := copyFromSlice 8 (leBytes 4 clsid.data1.toNat) buf
  let buf := copyFromSlice 12 (leBytes 2 clsid.data2.toNat) buf
  let buf := copyFromSlice 14 (leBytes 2 clsid.data3.toNat) buf
  copyFromSlice 16 clsid.data4.toList buf

/-- Writing into a buffer whose tail is still zero. -/
theorem copyFromSlice_zeros {start k : ℕ} {done src : List UInt8}
    (gap rest : ℕ) (hstart : start = done.length + gap)
    (hk : k = gap + src.length + rest) :
    copyFromSlice start src (done ++ List.replicate k 0) =
      (done ++ List.replicate gap 0 ++ src) ++ List.replicate rest 0 := by
  have hbefore : (done ++ List.replicate gap (0 : UInt8)).length = start := by
    simp [hstart]
  have hthrough : (done ++ List.replicate gap 0 ++
      List.replicate src.length (0 : UInt8)).length = start + src.length := by
    simp [hstart, Nat.add_assoc]
  have hsplit : done ++ List.replicate k 0 =
      done ++ List.replicate gap 0 ++ List.replicate src.length 0 ++
        List.replicate rest (0 : UInt8) := by
    rw [hk, List.replicate_add, List.replicate_add]
    simp only [List.append_assoc]
  rw [copyFromSlice, hsplit, List.drop_left' hthrough,
    List.append_assoc _ (List.replicate src.length 0), List.take_left' hbefore]

/-- The fields of the payload, in order. -/
theorem serializeClsidProperty_eq (c : Clsid) :
    serializeClsidProperty c =
      leBytes 4 72 ++ List.replicate 4 0 ++ guidBytes c.toGuid := by
  have hstart : List.replicate 24 (0 : UInt8) = [] ++ List.replicate 24 0 :=
    rfl
  simp only [serializeClsidProperty]
  rw [hstart, copyFromSlice_zeros 0 20 (by simp) (by simp),
    copyFromSlice_zeros 4 12 (by simp) (by simp),
    copyFromSlice_zeros 0 10 (by simp) (by simp),
    copyFromSlice_zeros 0 8 (by simp) (by simp),
    copyFromSlice_zeros 0 0 (by simp) (by simp)]
  simp [guidBytes, Clsid.toGuid]

/-- `[u8; 24]`. -/
theorem length_serializeClsidProperty (c : Clsid) :
    (serializeClsidProperty c).length = 24 := by
  simp [serializeClsidProperty_eq]

/-- The payload determines the class. -/
theorem serializeClsidProperty_injective :
    Function.Injective serializeClsidProperty := by
  intro c c' h
  rw [serializeClsidProperty_eq, serializeClsidProperty_eq] at h
  have hguid := guidBytes_injective (List.append_cancel_left h)
  rw [← Clsid.ofGuid_toGuid c, hguid, Clsid.ofGuid_toGuid]

/-! ## Where a binding is stored -/

/-- What names a binding: the endpoint and the property. -/
@[ext] structure Slot where
  kind : EndpointKind
  endpointId : Clsid
  fmtid : Clsid
  pid : UInt32
  deriving DecidableEq

/-- The key of the value that stores a binding. -/
def Slot.key (q : Slot) : HKey :=
  keyPath (fxPropertiesKeyPath q.kind q.endpointId)

/-- The name of the value that stores a binding. -/
def Slot.name (q : Slot) : Name :=
  foldName (fxPropertyValueName q.fmtid q.pid)

/-- The key above the endpoints of both kinds. -/
def audioKey : HKey :=
  keyPath "SOFTWARE\\Microsoft\\Windows\\CurrentVersion\\MMDevices\\Audio"

/-- A path whose first and last parts end and begin with a separator. -/
theorem keyPath_nested {root root' leaf leaf' : String}
    (hroot : root' = root ++ "\\") (hleaf : leaf' = "\\" ++ leaf)
    (a b : String) :
    keyPath (root' ++ a ++ "\\" ++ b ++ leaf') =
      keyPath root ++ keyPath a ++ keyPath b ++ keyPath leaf := by
  subst hroot hleaf
  rw [← String.append_assoc, keyPath_append, keyPath_append, keyPath_append]

theorem Slot.key_eq (q : Slot) :
    q.key = audioKey ++ [foldName q.kind.asStr] ++
      [q.endpointId.display.toList] ++ [foldName "FxProperties"] := by
  have hkind : '\\' ∉ q.kind.asStr.toList := by
    cases q.kind <;> decide
  have hleaf : '\\' ∉ "FxProperties".toList := by decide
  have hpath : q.key = audioKey ++ keyPath q.kind.asStr ++
      keyPath q.endpointId.display ++ keyPath "FxProperties" :=
    keyPath_nested (by decide) (by decide) _ _
  rw [hpath, keyPath_of_not_mem hkind, keyPath_display,
    keyPath_of_not_mem hleaf]

/-- A digit has no upper case. -/
theorem toUpper_of_isDigit {ch : Char} (h : ch.isDigit) : ch.toUpper = ch := by
  have hle : ch.toNat ≤ '9'.toNat := (Char.isDigit_iff_toNat.mp h).2
  have hlower : ¬ ('a'.val ≤ ch.val ∧ ch.val ≤ 'z'.val) := by
    rintro ⟨hge, -⟩
    have hge' : 'a'.toNat ≤ ch.toNat := UInt32.le_iff_toNat_le.mp hge
    exact absurd (hge'.trans hle) (by decide)
  exact dif_neg hlower

theorem foldName_toString (n : ℕ) :
    foldName (toString n) = (toString n).toList := by
  have hupper : ∀ ch ∈ Nat.toDigits 10 n, ch.toUpper = ch := fun ch hch =>
    toUpper_of_isDigit (Nat.isDigit_of_mem_toDigits (by decide) le_rfl hch)
  rw [foldName, Nat.toString_eq_repr, Nat.toList_repr,
    List.map_congr_left hupper, List.map_id']

theorem toList_toString_injective {m n : ℕ}
    (h : (toString m).toList = (toString n).toList) : m = n := by
  rw [Nat.toString_eq_repr, Nat.toString_eq_repr, Nat.toList_repr,
    Nat.toList_repr] at h
  have hvalue := congrArg (fun ds => Nat.ofDigitChars 10 ds 0) h
  simpa only [Nat.ofDigitChars_ten_toDigits] using hvalue

theorem Slot.name_eq (q : Slot) :
    q.name = q.fmtid.display.toList ++ [','] ++
      (toString q.pid.toNat).toList := by
  have hcomma : foldName "," = [','] := by decide
  have hlabel : foldName (q.fmtid.display ++ ",") =
      q.fmtid.display.toList ++ [','] :=
    (foldName_append _ _).trans
      (congrArg₂ (· ++ ·) (foldName_display q.fmtid) hcomma)
  exact (foldName_append _ _).trans
    (congrArg₂ (· ++ ·) hlabel (foldName_toString q.pid.toNat))

/-- Different bindings are stored in different values. -/
theorem slot_injective :
    Function.Injective fun q : Slot => (q.key, q.name) := by
  intro q q' h
  obtain ⟨hkey, hname⟩ := Prod.mk.inj h
  rw [q.key_eq, q'.key_eq] at hkey
  rw [q.name_eq, q'.name_eq] at hname
  obtain ⟨hkey, -⟩ := List.append_inj' hkey (by simp only [List.length_singleton])
  obtain ⟨hkey, hendpoint⟩ :=
    List.append_inj' hkey (by simp only [List.length_singleton])
  have hkind := List.singleton_inj.mp (List.append_cancel_left hkey)
  obtain ⟨hlabel, hpid⟩ := List.append_inj hname (by simp [Clsid.length_display])
  have hfmtid := List.append_cancel_right hlabel
  have hkind' : ∀ k k' : EndpointKind,
      foldName k.asStr = foldName k'.asStr → k = k' := by
    intro k k' heq
    cases k <;> cases k' <;> first | rfl | exact absurd heq (by decide)
  have htext := Clsid.display_injective
  refine Slot.ext (hkind' _ _ hkind) ?_ ?_ ?_
  · exact htext (String.toList_inj.mp (List.singleton_inj.mp hendpoint))
  · exact htext (String.toList_inj.mp hfmtid)
  · exact UInt32.toNat_inj.mp (toList_toString_injective hpid)

/-! ## Writing and clearing

Both functions `close` the key behind the last call shown and drop the result
of `RegCloseKey`. -/

/-- `write_endpoint_binding`. -/
def writeEndpointBinding (create : CreateOutcome) (set : Outcome)
    (kind : EndpointKind) (endpointId fmtid : Clsid) (pid : UInt32)
    (apoClsid : Clsid) (s : System) : System × Except Failure Unit :=
  let path := fxPropertiesKeyPath kind endpointId
  match createSubkey create path s with
  | (s, .error e) => (s, .error e)
  | (s, .ok key) =>
      let valueName := fxPropertyValueName fmtid pid
      let payload := serializeClsidProperty apoClsid
      let (s, err) :=
        regSetValueExW set key (foldName valueName) ⟨.binary, payload⟩ s
      (s, err.ok)

/-- `clear_endpoint_binding`. -/
def clearEndpointBinding (create : CreateOutcome) (delete : Outcome)
    (kind : EndpointKind) (endpointId fmtid : Clsid) (pid : UInt32)
    (s : System) : System × Except Failure Unit :=
  let path := fxPropertiesKeyPath kind endpointId
  match createSubkey create path s with
  | (s, .error e) =>
      if e.code = HResult.eInvalidarg then (s, .ok ()) else (s, .error e)
  | (s, .ok key) =>
      let valueName := fxPropertyValueName fmtid pid
      match regDeleteValueW delete key (foldName valueName) s with
      | (s, .success) => (s, .ok ())
      | (s, .fileNotFound) => (s, .ok ())
      | (s, .other e) => (s, .error e)

/-- The data that stores a class. -/
def bindingData (c : Clsid) : RegData where
  type := .binary
  bytes := serializeClsidProperty c

theorem writeEndpointBinding_ok (q : Slot) (c : Clsid) (s : System) :
    writeEndpointBinding .ok .ok q.kind q.endpointId q.fmtid q.pid c s =
      ({ s with
          hive := (s.hive.createKey q.key).setValue q.key q.name
            (bindingData c) }, .ok ()) :=
  rfl

theorem clearEndpointBinding_ok (q : Slot) (s : System) :
    clearEndpointBinding .ok .ok q.kind q.endpointId q.fmtid q.pid s =
      ({ s with hive := (s.hive.createKey q.key).deleteValue q.key q.name },
        .ok ()) := by
  obtain ⟨err, rfl | rfl, hdelete⟩ := regDeleteValueW_ok q.key q.name
    { s with hive := s.hive.createKey q.key } <;>
  · rw [Slot.key, Slot.name] at hdelete
    simp only [clearEndpointBinding, createSubkey_ok, hdelete]
    rfl

theorem clearEndpointBinding_delete_failed (q : Slot) (e : Failure)
    (s : System) :
    clearEndpointBinding .ok (.failed e) q.kind q.endpointId q.fmtid q.pid s =
      ({ hive := s.hive.createKey q.key, failures := s.failures ++ [e] },
        .error e) :=
  rfl

theorem clearEndpointBinding_create_failed (q : Slot) (e : Failure) (made : ℕ)
    (delete : Outcome) (s : System) :
    clearEndpointBinding (.failed e made) delete q.kind q.endpointId q.fmtid
        q.pid s =
      ({ hive := s.hive.createKey (q.key.take made)
         failures := s.failures ++ [e] },
        if e.code = HResult.eInvalidarg then .ok () else .error e) := by
  simp only [clearEndpointBinding, createSubkey_failed]
  split <;> rfl

end TympanApo.FxProperties
