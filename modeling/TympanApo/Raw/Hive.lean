import TympanApo.Clsid.Text
import TympanApo.Error
import TympanApo.Layout
import TympanApo.Support.Registry
import TympanApo.Support.Utf16

/-!
# Registry calls

The content of one hive of the Windows registry, and the calls on it that
`raw/register.rs` and `fx_properties.rs` make.  Names are compared without
case; the names that the crate itself opens are ASCII.  Whether a call fails
is a parameter, an outcome for each call.
-/

namespace TympanApo.Win32

open TympanApo.Support

/-! ## Errors -/

/-- A `windows_core::Error` made of a Win32 error: its code is a failure. -/
structure Failure where
  code : HResult
  failing : code.isErr = true

/-- `WIN32_ERROR`. -/
inductive Win32Error
  | success
  | fileNotFound
  | other (e : Failure)

/-- `ERROR_FILE_NOT_FOUND` as an error. -/
def errorFileNotFound : Failure where
  code := HResult.ofBits 0x80070002
  failing := by decide

/-- `WIN32_ERROR::ok`. -/
def Win32Error.ok : Win32Error → Except Failure Unit
  | .success => .ok ()
  | .fileNotFound => .error errorFileNotFound
  | .other e => .error e

/-! ## Names and values -/

/-- The name of a key or a value, in upper case. -/
abbrev Name := List Char

def foldName (s : String) : Name :=
  s.toList.map Char.toUpper

/-- The names in a path, which `\` separates. -/
def keyPath (s : String) : List Name :=
  (s.toList.splitOn '\\').map (List.map Char.toUpper)

/-- `REG_SZ`, `REG_BINARY` and the types the crate does not write. -/
inductive RegType
  | sz
  | binary
  | other (code : UInt32)
  deriving DecidableEq

structure RegData where
  type : RegType
  bytes : List UInt8
  deriving DecidableEq

/-- `encode_wide`. -/
def encodeWide (s : String) : List UInt16 :=
  Utf16.encode s.toList ++ [0]

theorem keyPath_append (a b : String) :
    keyPath (a ++ "\\" ++ b) = keyPath a ++ keyPath b := by
  have hsep : "\\".toList = ['\\'] := by decide
  rw [keyPath, String.toList_append, String.toList_append, hsep,
    List.append_assoc, List.singleton_append, List.splitOn_append_cons_self,
    List.map_append]
  rfl

theorem keyPath_of_not_mem {s : String} (h : '\\' ∉ s.toList) :
    keyPath s = [foldName s] := by
  rw [keyPath, List.splitOn_eq_singleton h]
  rfl

-- Paths are compared by the lemmas above, never by splitting literals.
attribute [irreducible] keyPath

theorem foldName_append (a b : String) :
    foldName (a ++ b) = foldName a ++ foldName b := by
  simp [foldName]

/-- The text of an identifier is in upper case. -/
theorem foldName_display (c : Clsid) : foldName c.display = c.display.toList := by
  have hupper : ∀ ch ∈ c.display.toList, ch.toUpper = ch :=
    c.forall_mem_display (by decide) (by decide) (by decide) (by decide)
  rw [foldName, List.map_congr_left hupper, List.map_id']

theorem keyPath_display (c : Clsid) : keyPath c.display = [c.display.toList] := by
  have hback : ∀ ch ∈ c.display.toList, ch ≠ '\\' :=
    c.forall_mem_display (by decide) (by decide) (by decide) (by decide)
  rw [keyPath_of_not_mem fun hmem => hback _ hmem rfl, foldName_display]

/-! ## Calls -/

/-- The keys and values under one predefined key. -/
abbrev Hive := Registry Name Name RegData

/-- An open key is the path it was opened at. -/
abbrev HKey := List Name

/-- The hive that the calls work on.  The second field is not in the code: it
lists the failures that the calls so far have reported. -/
structure System where
  hive : Hive
  failures : List Failure

/-- Whether a call fails. -/
inductive Outcome
  | ok
  | failed (e : Failure)

/-- Whether `RegCreateKeyExW` fails, and then how many of the keys on the path
it has opened or created by that time. -/
inductive CreateOutcome
  | ok
  | failed (e : Failure) (made : ℕ)

/-- The key that a call leaves in place. -/
def CreateOutcome.opened : CreateOutcome → HKey → HKey
  | .ok, path => path
  | .failed _ made, path => path.take made

/-- A call that fails and leaves the hive alone. -/
def System.fail (s : System) (e : Failure) : System × Win32Error :=
  ({ s with failures := s.failures ++ [e] }, .other e)

/-- `RegCreateKeyExW`. -/
def regCreateKeyExW (outcome : CreateOutcome) (path : HKey) (s : System) :
    System × Win32Error :=
  let s := { s with hive := s.hive.createKey (outcome.opened path) }
  match outcome with
  | .ok => (s, .success)
  | .failed e _ => s.fail e

/-- `RegSetValueExW`. -/
def regSetValueExW (outcome : Outcome) (key : HKey) (name : Name)
    (data : RegData) (s : System) : System × Win32Error :=
  match outcome with
  | .ok => ({ s with hive := s.hive.setValue key name data }, .success)
  | .failed e => s.fail e

/-- `RegDeleteValueW`. -/
def regDeleteValueW (outcome : Outcome) (key : HKey) (name : Name)
    (s : System) : System × Win32Error :=
  match outcome with
  | .ok =>
      if (s.hive.value key name).isSome then
        ({ s with hive := s.hive.deleteValue key name }, .success)
      else (s, .fileNotFound)
  | .failed e => s.fail e

/-- `RegDeleteTreeW`. -/
def regDeleteTreeW (outcome : Outcome) (path : HKey) (s : System) :
    System × Win32Error :=
  match outcome with
  | .ok =>
      if s.hive.HasKey path then
        ({ s with hive := s.hive.deleteTree path }, .success)
      else (s, .fileNotFound)
  | .failed e => s.fail e

/-- A deletion that does not fail leaves no value, whatever it reports. -/
theorem regDeleteValueW_ok (key : HKey) (name : Name) (s : System) :
    ∃ err, (err = .success ∨ err = .fileNotFound) ∧
      regDeleteValueW .ok key name s =
        ({ s with hive := s.hive.deleteValue key name }, err) := by
  by_cases h : (s.hive.value key name).isSome = true
  · exact ⟨_, Or.inl rfl, if_pos h⟩
  · have hnone := Option.not_isSome_iff_eq_none.mp h
    refine ⟨_, Or.inr rfl, ?_⟩
    rw [Registry.deleteValue_of_value_eq_none hnone]
    exact if_neg h

/-- A deletion that does not fail leaves no key, whatever it reports. -/
theorem regDeleteTreeW_ok (path : HKey) (s : System) :
    ∃ err, (err = .success ∨ err = .fileNotFound) ∧
      regDeleteTreeW .ok path s =
        ({ s with hive := s.hive.deleteTree path }, err) := by
  by_cases h : s.hive.HasKey path
  · exact ⟨_, Or.inl rfl, if_pos h⟩
  · refine ⟨_, Or.inr rfl, ?_⟩
    rw [Registry.deleteTree_of_not_hasKey h]
    exact if_neg h

/-- `create_subkey`; the handle is the path. -/
def createSubkey (outcome : CreateOutcome) (path : String) (s : System) :
    System × Except Failure HKey :=
  let (s, err) := regCreateKeyExW outcome (keyPath path) s
  (s, err.ok.map fun _ => keyPath path)

theorem createSubkey_ok (path : String) (s : System) :
    createSubkey .ok path s =
      ({ s with hive := s.hive.createKey (keyPath path) },
        .ok (keyPath path)) :=
  rfl

theorem createSubkey_failed (e : Failure) (made : ℕ) (path : String)
    (s : System) :
    createSubkey (.failed e made) path s =
      ({ hive := s.hive.createKey ((keyPath path).take made)
         failures := s.failures ++ [e] }, .error e) :=
  rfl

end TympanApo.Win32
