import TympanApo.Clsid.Text
import TympanApo.Raw.ClassFactory
import TympanApo.Raw.Hive

/-!
# Self-registration

`raw/register.rs` and the two dispatch functions of `raw/exports.rs` that use
it.  An APO is registered by a key named after its class with a subkey
`InprocServer32`; everything that registration writes lies at or below that
key, and class keys are never on the way to one another.
-/

namespace TympanApo.Register

open TympanApo.ComServer (ApoVTable)
open TympanApo.Support
open TympanApo.Win32

/-! ## Keys -/

/-- `clsid_subkey`. -/
def clsidSubkey (clsid : Clsid) : String :=
  "Software\\Classes\\CLSID\\" ++ clsid.display

/-- `inproc_subkey`. -/
def inprocSubkey (clsid : Clsid) : String :=
  "Software\\Classes\\CLSID\\" ++ clsid.display ++ "\\InprocServer32"

/-- The key that `clsid_subkey` names. -/
def clsidKey (clsid : Clsid) : HKey :=
  keyPath (clsidSubkey clsid)

/-- The key that `inproc_subkey` names. -/
def inprocKey (clsid : Clsid) : HKey :=
  keyPath (inprocSubkey clsid)

/-- The key above the class keys. -/
def classesKey : HKey :=
  keyPath "Software\\Classes\\CLSID"

theorem clsidKey_eq (c : Clsid) :
    clsidKey c = classesKey ++ [c.display.toList] := by
  have hroot : "Software\\Classes\\CLSID\\" =
      "Software\\Classes\\CLSID" ++ "\\" := by decide
  calc clsidKey c
    _ = keyPath ("Software\\Classes\\CLSID" ++ "\\" ++ c.display) :=
      congrArg (fun s => keyPath (s ++ c.display)) hroot
    _ = classesKey ++ keyPath c.display := keyPath_append _ _
    _ = classesKey ++ [c.display.toList] := by rw [keyPath_display]

theorem inprocKey_eq (c : Clsid) :
    inprocKey c = clsidKey c ++ [foldName "InprocServer32"] := by
  have hsuffix : "\\InprocServer32" = "\\" ++ "InprocServer32" := by decide
  have hleaf : '\\' ∉ "InprocServer32".toList := by decide
  have hpath : inprocSubkey c = clsidSubkey c ++ "\\" ++ "InprocServer32" :=
    (congrArg (clsidSubkey c ++ ·) hsuffix).trans String.append_assoc.symm
  calc inprocKey c
    _ = keyPath (clsidSubkey c ++ "\\" ++ "InprocServer32") :=
      congrArg keyPath hpath
    _ = clsidKey c ++ keyPath "InprocServer32" := keyPath_append _ _
    _ = clsidKey c ++ [foldName "InprocServer32"] :=
      congrArg (clsidKey c ++ ·) (keyPath_of_not_mem hleaf)

theorem clsidKey_prefix_inprocKey (c : Clsid) : clsidKey c <+: inprocKey c := by
  rw [inprocKey_eq]
  exact List.prefix_append _ _

theorem clsidKey_ne_nil (c : Clsid) : clsidKey c ≠ [] := by
  simp [clsidKey_eq]

theorem clsidKey_injective : Function.Injective clsidKey := by
  intro c c' h
  rw [clsidKey_eq, clsidKey_eq] at h
  have htext := List.singleton_inj.mp (List.append_cancel_left h)
  exact Clsid.display_injective (String.toList_inj.mp htext)

/-- No class key lies at, above or below another one. -/
theorem eq_of_prefix_clsidKey {c c' : Clsid}
    (h : clsidKey c <+: clsidKey c') : c = c' := by
  have hlength : (clsidKey c).length = (clsidKey c').length := by
    simp [clsidKey_eq]
  exact clsidKey_injective (h.eq_of_length hlength)

/-- What lies below a class key is aside from every other class key. -/
theorem aside_of_ne {c c' : Clsid} (hne : c ≠ c') {p : HKey}
    (hp : clsidKey c <+: p) : ¬ clsidKey c' <+: p ∧ ¬ p <+: clsidKey c' := by
  constructor
  · intro h
    rcases List.prefix_or_prefix_of_prefix hp h with hle | hle
    · exact hne (eq_of_prefix_clsidKey hle)
    · exact hne (eq_of_prefix_clsidKey hle).symm
  · intro h
    exact hne (eq_of_prefix_clsidKey (hp.trans h))

/-! ## Registering and unregistering one class -/

/-- Whether each of the calls that register one class fails. -/
structure WriteOutcomes where
  createClsid : CreateOutcome
  setName : Outcome
  createInproc : CreateOutcome
  setPath : Outcome
  setThreading : Outcome

/-- Data of type `REG_SZ`. -/
def regSz (wide : List UInt16) : RegData where
  type := .sz
  bytes := wideBytes wide

theorem regSz_injective : Function.Injective regSz := by
  intro wide wide' h
  exact wideBytes_injective (congrArg RegData.bytes h)

/-- `set_default_value`, which drops the result of the call. -/
def setDefaultValue (outcome : Outcome) (key : HKey) (value : String)
    (s : System) : System :=
  (regSetValueExW outcome key [] (regSz (encodeWide value)) s).1

/-- `set_default_wide`. -/
def setDefaultWide (outcome : Outcome) (key : HKey) (wide : List UInt16)
    (s : System) : System × Except Failure Unit :=
  let (s, err) := regSetValueExW outcome key [] (regSz wide) s
  (s, err.ok)

/-- `set_named_value`. -/
def setNamedValue (outcome : Outcome) (key : HKey) (name value : String)
    (s : System) : System × Except Failure Unit :=
  let (s, err) :=
    regSetValueExW outcome key (foldName name) (regSz (encodeWide value)) s
  (s, err.ok)

/-- `write_registry_with`.  `close` drops the result of `RegCloseKey`, and a
closed handle is not used again: the calls that can fail are the two creates
and the three sets. -/
def writeRegistryWith (calls : WriteOutcomes) (clsid : Clsid) (name : String)
    (dllPathWide : List UInt16) (s : System) : System × Except Failure Unit :=
  match createSubkey calls.createClsid (clsidSubkey clsid) s with
  | (s, .error e) => (s, .error e)
  | (s, .ok key) =>
      let s := setDefaultValue calls.setName key name s
      -- `close(key)`
      match createSubkey calls.createInproc (inprocSubkey clsid) s with
      | (s, .error e) => (s, .error e)
      | (s, .ok inproc) =>
          let (s, setPath) := setDefaultWide calls.setPath inproc dllPathWide s
          let (s, setThreading) :=
            setNamedValue calls.setThreading inproc "ThreadingModel" "Both" s
          -- `close(inproc)`
          (s, setPath.bind fun _ => setThreading)

/-- `write_registry`. -/
def writeRegistry (calls : WriteOutcomes) (vtable : ApoVTable)
    (dllPathWide : List UInt16) (s : System) : System × Except Failure Unit :=
  writeRegistryWith calls vtable.clsid vtable.name dllPathWide s

/-- `clear_registry`. -/
def clearRegistry (outcome : Outcome) (clsid : Clsid) (s : System) :
    System × Except Failure Unit :=
  match regDeleteTreeW outcome (clsidKey clsid) s with
  | (s, .success) => (s, .ok ())
  | (s, .fileNotFound) => (s, .ok ())
  | (s, .other e) => (s, .error e)

/-! ## The dispatch functions -/

/-- The path of a loaded module; it is not empty. -/
structure ModulePath where
  units : List UInt16
  nonempty : units ≠ []

/-- What the loader answers: whether it finds the module, the path unless it
has none to give, and the error that explains a failure. -/
structure Loader where
  handle : Except Failure Unit
  fileName : Option ModulePath
  lastError : Failure

/-- `GetModuleFileNameW` with a buffer of `size` units: the number of units it
reports, and the buffer. -/
def getModuleFileNameW (loader : Loader) (size : ℕ) : ℕ × List UInt16 :=
  match loader.fileName with
  | none => (0, List.replicate size 0)
  | some path =>
      if path.units.length < size then
        (path.units.length,
          path.units ++ List.replicate (size - path.units.length) 0)
      else (size, path.units.take (size - 1) ++ [0])

/-- `own_module_path`. -/
def ownModulePath (loader : Loader) : Except Failure (List UInt16) :=
  match loader.handle with
  | .error e => .error e
  | .ok () =>
      let (written, buf) := getModuleFileNameW loader 1024
      if written = 0 then .error loader.lastError
      else .ok (buf.take (written + 1))

/-- The loop of `dll_register_server_dispatch`; the calls for the `i`-th vtable
have the outcomes `calls i`. -/
def registerAll (calls : ℕ → WriteOutcomes) (dllPath : List UInt16) :
    List ApoVTable → System → System × HResult
  | [], s => (s, HResult.sOk)
  | vtable :: registry, s =>
      match writeRegistry (calls 0) vtable dllPath s with
      | (s, .error e) => (s, e.code)
      | (s, .ok ()) => registerAll (fun i => calls (i + 1)) dllPath registry s

/-- `dll_register_server_dispatch`. -/
def dllRegisterServerDispatch (loader : Loader) (calls : ℕ → WriteOutcomes)
    (registry : List ApoVTable) (s : System) : System × HResult :=
  match ownModulePath loader with
  | .error e => (s, e.code)
  | .ok dllPath => registerAll calls dllPath registry s

/-- `dll_unregister_server_dispatch`; the call for the `i`-th vtable has the
outcome `deletes i`. -/
def dllUnregisterServerDispatch (deletes : ℕ → Outcome) :
    List ApoVTable → System → System × HResult
  | [], s => (s, HResult.sOk)
  | vtable :: registry, s =>
      match clearRegistry (deletes 0) vtable.clsid s with
      | (s, .error e) => (s, e.code)
      | (s, .ok ()) =>
          dllUnregisterServerDispatch (fun i => deletes (i + 1)) registry s

/-! ## What registering one class does -/

section Write

variable (calls : WriteOutcomes) (clsid : Clsid) (name : String)
variable (wide : List UInt16) (s : System)

theorem confined_createSubkey (outcome : CreateOutcome) {path : String}
    (h : clsidKey clsid <+: keyPath path) :
    Registry.Confined (· = clsidKey clsid) s.hive
      (createSubkey outcome path s).1.hive := by
  cases outcome with
  | ok => exact Registry.Confined.createKey rfl h List.prefix_rfl
  | failed e made =>
      exact Registry.Confined.createKey rfl h (List.take_prefix made _)

theorem confined_regSetValueExW (outcome : Outcome) {key : HKey}
    (h : clsidKey clsid <+: key) (name : Name) (data : RegData) :
    Registry.Confined (· = clsidKey clsid) s.hive
      (regSetValueExW outcome key name data s).1.hive := by
  cases outcome with
  | ok =>
      refine Registry.Confined.update ?_ h name _
      rfl
  | failed e => exact Registry.Confined.refl _ _

/-- Registering a class touches nothing outside its key, whatever fails. -/
theorem confined_writeRegistryWith :
    Registry.Confined (· = clsidKey clsid) s.hive
      (writeRegistryWith calls clsid name wide s).1.hive := by
  have hinproc := clsidKey_prefix_inprocKey clsid
  have hclsid : clsidKey clsid <+: clsidKey clsid := List.prefix_rfl
  have hopen := confined_createSubkey clsid s calls.createClsid hclsid
  cases hcreate : calls.createClsid with
  | failed e made =>
      rw [hcreate] at hopen
      simpa only [writeRegistryWith, hcreate, createSubkey_failed] using hopen
  | ok =>
      rw [hcreate] at hopen
      simp only [writeRegistryWith, hcreate, createSubkey_ok]
      have hname := hopen.trans (confined_regSetValueExW clsid _ calls.setName
        hclsid [] (regSz (encodeWide name)))
      have hopen' := hname.trans
        (confined_createSubkey clsid _ calls.createInproc hinproc)
      cases hcreate' : calls.createInproc with
      | failed e made =>
          rw [hcreate'] at hopen'
          exact hopen'
      | ok =>
          rw [hcreate'] at hopen'
          exact (hopen'.trans (confined_regSetValueExW clsid _ calls.setPath
            hinproc _ _)).trans (confined_regSetValueExW clsid _ _ hinproc _ _)

/-- The calls whose results `write_registry_with` looks at succeed. -/
def WriteOutcomes.ChecksPass (calls : WriteOutcomes) : Prop :=
  calls.createClsid = .ok ∧ calls.createInproc = .ok ∧
    calls.setPath = .ok ∧ calls.setThreading = .ok

/-- The values of a class that is registered with the path `wide`; the name is
there if `named`. -/
structure Wrote (named : Prop) (hive : Hive) : Prop where
  name : named →
    hive.value (clsidKey clsid) [] = some (regSz (encodeWide name))
  path : hive.value (inprocKey clsid) [] = some (regSz wide)
  threading : hive.value (inprocKey clsid) (foldName "ThreadingModel") =
    some (regSz (encodeWide "Both"))

theorem Wrote.mono {named named' : Prop} {hive : Hive} {clsid : Clsid}
    {name : String} {wide : List UInt16} (h : Wrote clsid name wide named hive)
    (himp : named' → named) : Wrote clsid name wide named' hive :=
  ⟨fun hnamed => h.name (himp hnamed), h.path, h.threading⟩

/-- The values of a class survive what happens under other class keys. -/
theorem Wrote.of_confined {named : Prop} {hive hive' : Hive} {clsid : Clsid}
    {name : String} {wide : List UInt16} (h : Wrote clsid name wide named hive)
    {tops : HKey → Prop} (hconfined : Registry.Confined tops hive hive')
    (htops : ∀ top, tops top → ∃ c, clsid ≠ c ∧ top = clsidKey c) :
    Wrote clsid name wide named hive' := by
  have hsame : ∀ p, clsidKey clsid <+: p → ∀ n,
      hive'.value p n = hive.value p n := by
    intro p hp n
    refine Registry.value_congr (hconfined.aside p fun top htop => ?_) n
    obtain ⟨c, hne, rfl⟩ := htops top htop
    exact aside_of_ne hne hp
  refine ⟨fun hnamed => ?_, ?_, ?_⟩
  · rw [hsame _ List.prefix_rfl, h.name hnamed]
  · rw [hsame _ (clsidKey_prefix_inprocKey clsid), h.path]
  · rw [hsame _ (clsidKey_prefix_inprocKey clsid), h.threading]

/-- When the checked calls succeed, the class is registered, and only a
failure to set the name is reported without being returned. -/
theorem writeRegistryWith_of_checksPass (h : calls.ChecksPass) :
    ∃ s', writeRegistryWith calls clsid name wide s = (s', .ok ()) ∧
      Wrote clsid name wide (calls.setName = .ok) s'.hive ∧
      (s'.failures = [] ↔ s.failures = [] ∧ calls.setName = .ok) := by
  obtain ⟨hclsid, hinproc, hpath, hthreading⟩ := h
  have hvalue : ([] : Name) ≠ foldName "ThreadingModel" := by decide
  have hkey : clsidKey clsid ≠ inprocKey clsid := by
    rw [inprocKey_eq]
    simp
  have hwrite : writeRegistryWith calls clsid name wide s =
      (let named := setDefaultValue calls.setName (clsidKey clsid) name
        { s with hive := s.hive.createKey (clsidKey clsid) }
       { named with
          hive := ((named.hive.createKey (inprocKey clsid)).setValue
            (inprocKey clsid) [] (regSz wide)).setValue (inprocKey clsid)
            (foldName "ThreadingModel") (regSz (encodeWide "Both")) },
        .ok ()) := by
    simp only [writeRegistryWith, hclsid, hinproc, hpath, hthreading,
      createSubkey_ok]
    rfl
  have hopen := fun r : Hive => r.hasKey_createKey_self (inprocKey clsid)
  refine ⟨_, hwrite, ⟨fun hnamed => ?_, ?_, ?_⟩, ?_⟩
  · rw [Registry.value_setValue_of_ne (by simp [hkey]),
      Registry.value_setValue_of_ne (by simp [hkey]),
      Registry.value_createKey, hnamed]
    exact Registry.value_setValue_self (Registry.hasKey_createKey_self _ _) _ _
  · rw [Registry.value_setValue_of_ne (by simp [hvalue])]
    exact Registry.value_setValue_self (hopen _) _ _
  · exact Registry.value_setValue_self ((hopen _).setValue _ _ _) _ _
  · cases hname : calls.setName with
    | ok => simp [setDefaultValue, regSetValueExW]
    | failed e => simp [setDefaultValue, regSetValueExW, System.fail]

/-- When one of the checked calls fails, so does the registration. -/
theorem writeRegistryWith_of_not_checksPass (h : ¬ calls.ChecksPass) :
    ∃ s' e, writeRegistryWith calls clsid name wide s = (s', .error e) := by
  cases hclsid : calls.createClsid with
  | failed e made =>
      simp only [writeRegistryWith, hclsid, createSubkey_failed]
      exact ⟨_, _, rfl⟩
  | ok =>
      simp only [writeRegistryWith, hclsid, createSubkey_ok]
      cases hinproc : calls.createInproc with
      | failed e made => exact ⟨_, e, rfl⟩
      | ok =>
          cases hpath : calls.setPath with
          | failed e => exact ⟨_, e, rfl⟩
          | ok =>
              cases hthreading : calls.setThreading with
              | failed e => exact ⟨_, e, rfl⟩
              | ok => exact absurd ⟨hclsid, hinproc, hpath, hthreading⟩ h

end Write

/-! ## What unregistering one class does -/

/-- Deletion leaves nothing of the class, and says so. -/
theorem clearRegistry_ok (clsid : Clsid) (s : System) :
    clearRegistry .ok clsid s =
      ({ s with hive := s.hive.deleteTree (clsidKey clsid) }, .ok ()) := by
  obtain ⟨err, rfl | rfl, hdelete⟩ := regDeleteTreeW_ok (clsidKey clsid) s <;>
    rw [clearRegistry, hdelete]

/-! ## The module path -/

/-- The module and its path are found. -/
def Loader.Finds (loader : Loader) (path : ModulePath) : Prop :=
  loader.handle = .ok () ∧ loader.fileName = some path

theorem ownModulePath_of_not_finds {loader : Loader}
    (h : ∀ path, ¬ loader.Finds path) : ∃ e, ownModulePath loader = .error e := by
  cases hhandle : loader.handle with
  | error e => exact ⟨e, by rw [ownModulePath, hhandle]⟩
  | ok =>
      cases hpath : loader.fileName with
      | some path => exact absurd ⟨hhandle, hpath⟩ (h path)
      | none =>
          refine ⟨loader.lastError, ?_⟩
          rw [ownModulePath, hhandle, getModuleFileNameW, hpath]
          exact if_pos rfl

/-- A path that fits is there with its terminator. -/
theorem ownModulePath_of_fits {loader : Loader} {path : ModulePath}
    (hfinds : loader.Finds path) (hfits : path.units.length < 1024) :
    ownModulePath loader = .ok (path.units ++ [0]) := by
  obtain ⟨hhandle, hpath⟩ := hfinds
  have hnonempty : path.units.length ≠ 0 := by simp [path.nonempty]
  have htake : (path.units ++ List.replicate (1024 - path.units.length) 0).take
      (path.units.length + 1) = path.units ++ [0] := by
    obtain ⟨k, hk⟩ : ∃ k, 1024 - path.units.length = k + 1 :=
      ⟨1023 - path.units.length, by omega⟩
    rw [List.take_length_add_append, hk, List.replicate_succ]
    rfl
  simp only [ownModulePath, getModuleFileNameW, hhandle, hpath, if_pos hfits,
    if_neg hnonempty, htake]

/-- A path that does not fit is cut, and nothing says so. -/
theorem ownModulePath_of_not_fits {loader : Loader} {path : ModulePath}
    (hfinds : loader.Finds path) (hfits : ¬ path.units.length < 1024) :
    ownModulePath loader = .ok (path.units.take 1023 ++ [0]) := by
  obtain ⟨hhandle, hpath⟩ := hfinds
  have hlength : (path.units.take 1023 ++ [(0 : UInt16)]).length ≤ 1024 + 1 := by
    simp only [List.length_append, List.length_take, List.length_singleton]
    omega
  have hcut := List.take_of_length_le hlength
  simp only [ownModulePath, getModuleFileNameW, hhandle, hpath, if_neg hfits]
  rw [if_neg (by decide)]
  exact congrArg Except.ok hcut

/-- The path arrives whole if and only if it fits. -/
theorem Loader.Finds.ownModulePath {loader : Loader} {path : ModulePath}
    (h : loader.Finds path) :
    ∃ buf, ownModulePath loader = .ok buf ∧
      (buf = path.units ++ [0] ↔ path.units.length < 1024) := by
  by_cases hfits : path.units.length < 1024
  · exact ⟨_, ownModulePath_of_fits h hfits, by simp [hfits]⟩
  · refine ⟨_, ownModulePath_of_not_fits h hfits, ?_⟩
    simp only [hfits, iff_false]
    intro heq
    have hlength := congrArg List.length heq
    simp only [List.length_append, List.length_take,
      List.length_singleton] at hlength
    omega

end TympanApo.Register
