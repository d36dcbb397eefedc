import TympanApo.Inf
import TympanApo.Raw.Recovery

/-!
# Installing the file

What the generated file asks for when its directives are followed: from the
manufacturer to the models and to the install section, and from there to the
files to copy and the registry values to add.  The values are those that
`DllRegisterServer` of the copied module writes, below the machine's classes.
-/

namespace TympanApo.Inf

open TympanApo.ComServer (ApoVTable Kind)
open TympanApo.Register
open TympanApo.Support
open TympanApo.Support.SectionText
open TympanApo.Win32

/-! ## Following directives -/

section Following

variable (systemDir : String) (sections : List Section)

/-- The directives of a section. -/
def directivesOf (name : List Char) : Option (List Directive) :=
  (sections.find? (·.name = name)).map (·.directives)

/-- The single value of a key in a section. -/
def textOf (name key : List Char) : Option (List Char) :=
  match (directivesOf sections name).bind (·.find? (·.key = some key)) with
  | some ⟨_, [value]⟩ => some value.text
  | _ => none

/-- The directory with an identifier; only that of `System32` is used. -/
def directory (dirId : List Char) : Option (List Char) :=
  if dirId = "11".toList then some systemDir.toList else none

/-- What a token stands for: a directory, or an entry of `[Strings]`. -/
def meaning (token : List Char) : Option (List Char) :=
  (directory systemDir token).or (textOf sections "Strings".toList token)

def expandText (value : Value) : String :=
  String.ofList (expand '%' (meaning systemDir sections) value.text)

/-- The install section of the first model. -/
def installSection : Option (List Char) :=
  match directivesOf sections "Manufacturer".toList with
  | some [⟨some _, [models, target]⟩] =>
      match directivesOf sections (models.text ++ '.' :: target.text) with
      | some [⟨some _, [install, _]⟩] => some install.text
      | _ => none
  | _ => none

/-- The directives of the section that a key of the install section names. -/
def listed (key : String) : Option (List Directive) :=
  ((installSection sections).bind fun install =>
    textOf sections install key.toList).bind (directivesOf sections)

/-- The files that are copied, with their place. -/
def copiedFiles : Option (List String) :=
  match listed sections "CopyFiles",
    (textOf sections "DestinationDirs".toList
      "DefaultDestDir".toList).bind (directory systemDir) with
  | some files, some dir =>
      files.mapM fun
        | ⟨none, [file]⟩ =>
            some (String.ofList dir ++ "\\" ++ expandText systemDir sections file)
        | _ => none
  | _, _ => none

/-- The value that one line of an `AddReg` section sets.  `HKCR` is the root of
the machine's classes, and flags `0` stand for `REG_SZ`. -/
def addedValue : Directive → Option (Registry.Entry Name Name RegData)
  | ⟨none, [root, subkey, name, flags, value]⟩ =>
      if root.text = "HKCR".toList ∧ flags.text = "0".toList then
        some
          { path := keyPath
              ("Software\\Classes\\" ++ expandText systemDir sections subkey)
            name := foldName (expandText systemDir sections name)
            data := regSz (encodeWide (expandText systemDir sections value)) }
      else none
  | _ => none

/-- The values that are added to the registry. -/
def addedValues : Option (List (Registry.Entry Name Name RegData)) :=
  (listed sections "AddReg").bind fun ds =>
    ds.mapM (addedValue systemDir sections)

end Following

/-! ## The generated file -/

section Generated

variable (config : InfConfig) (systemDir : String)

/-- The sections of the generated file. -/
def generated : List Section :=
  (gather ((lines config).map Entry.line)).2

theorem read_generate {config : InfConfig} (h : config.WellFormed)
    (hprovider : '\n' ∉ config.provider.toList)
    (hfriendly : '\n' ∉ config.friendlyName.toList) :
    read (generate config).toList = some (generated config) := by
  rw [toList_generate config h.leaf.2]
  exact read_write (wellFormed_lines h hprovider hfriendly) (Prod.ext rfl rfl)

theorem listed_copyFiles :
    listed (generated config) "CopyFiles" =
      some [⟨none, [.plain config.dllFilename.toList]⟩] :=
  rfl

/-- A line of the `AddReg` section. -/
def addRegLine (subkey name : String) (value : Value) : Directive :=
  ⟨none, [.plain "HKCR".toList, .plain subkey.toList, .plain name.toList,
    .plain "0".toList, value]⟩

theorem listed_addReg :
    listed (generated config) "AddReg" =
      some
        [ addRegLine (classPath config.clsid) "" (.plain "%ModelName%".toList),
          addRegLine (classPath config.clsid ++ "\\InprocServer32") ""
            (.quoted ("%11%\\" ++ config.dllFilename).toList),
          addRegLine (classPath config.clsid ++ "\\InprocServer32")
            "ThreadingModel" (.quoted "Both".toList) ] :=
  rfl

/-! ## Tokens in the file -/

theorem expandText_plain {sections : List Section} {s : String}
    (h : '%' ∉ s.toList) :
    expandText systemDir sections (.plain s.toList) = s := by
  rw [expandText, Value.text, expand_of_notMem h, String.ofList_toList]

theorem expandText_modelName :
    expandText systemDir (generated config) (.plain "%ModelName%".toList) =
      config.friendlyName := by
  have hmeaning : meaning systemDir (generated config) "ModelName".toList =
      some config.friendlyName.toList := rfl
  have htoken : "%ModelName%".toList = '%' :: "ModelName".toList ++ ['%'] := by
    decide
  have hname : '%' ∉ "ModelName".toList := by decide
  have hexpand := expand_token (by decide) hname List.not_mem_nil hmeaning
  rw [List.append_nil] at hexpand
  rw [expandText, Value.text, htoken, hexpand, String.ofList_toList]

theorem expandText_path {config : InfConfig}
    (hdll : '%' ∉ config.dllFilename.toList) (sections : List Section) :
    expandText systemDir sections
        (.quoted ("%11%\\" ++ config.dllFilename).toList) =
      systemDir ++ "\\" ++ config.dllFilename := by
  have hmeaning : meaning systemDir sections "11".toList =
      some systemDir.toList := rfl
  have hrest : '%' ∉ "\\".toList ++ config.dllFilename.toList :=
    List.mem_append.not.mpr (not_or_intro (by decide) hdll)
  have htoken : "%11%\\".toList = '%' :: "11".toList ++ '%' :: "\\".toList := by
    decide
  have hexpand := expand_token (by decide) (by decide) hrest hmeaning
  refine String.toList_inj.mp ?_
  rw [expandText, Value.text, String.toList_ofList, String.toList_append,
    String.toList_append, String.toList_append, htoken, List.append_assoc,
    List.append_assoc]
  exact hexpand

theorem percent_notMem_classPath (c : Clsid) : '%' ∉ (classPath c).toList := by
  have hdisplay : ∀ ch ∈ c.display.toList, ch ≠ '%' :=
    c.forall_mem_display (by decide) (by decide) (by decide) (by decide)
  rw [classPath, clsidBrace_eq, String.toList_append]
  exact List.mem_append.not.mpr
    (not_or_intro (by decide) fun hmem => hdisplay _ hmem rfl)

/-! ## What is installed -/

theorem addedValue_addRegLine {sections : List Section} {subkey name : String}
    (hsubkey : '%' ∉ subkey.toList) (hname : '%' ∉ name.toList)
    (value : Value) :
    addedValue systemDir sections (addRegLine subkey name value) =
      some
        { path := keyPath ("Software\\Classes\\" ++ subkey)
          name := foldName name
          data := regSz (encodeWide (expandText systemDir sections value)) } := by
  rw [addRegLine, addedValue, if_pos ⟨rfl, rfl⟩,
    expandText_plain systemDir hsubkey, expandText_plain systemDir hname]

theorem copiedFiles_generated {config : InfConfig}
    (hdll : '%' ∉ config.dllFilename.toList) :
    copiedFiles systemDir (generated config) =
      some [systemDir ++ "\\" ++ config.dllFilename] := by
  have hdest : (textOf (generated config) "DestinationDirs".toList
      "DefaultDestDir".toList).bind (directory systemDir) =
        some systemDir.toList := rfl
  rw [copiedFiles, listed_copyFiles, hdest]
  simp [expandText_plain systemDir hdll]

/-- Below the root of the classes the lines name the keys of the class. -/
theorem clsidSubkey_classPath (c : Clsid) :
    "Software\\Classes\\" ++ classPath c = clsidSubkey c := by
  have hroot : "Software\\Classes\\" ++ "CLSID\\" =
      "Software\\Classes\\CLSID\\" := by decide
  have hpath : classPath c = "CLSID\\" ++ c.display :=
    congrArg ("CLSID\\" ++ ·) (clsidBrace_eq c)
  calc "Software\\Classes\\" ++ classPath c
    _ = "Software\\Classes\\" ++ ("CLSID\\" ++ c.display) :=
      congrArg ("Software\\Classes\\" ++ ·) hpath
    _ = "Software\\Classes\\" ++ "CLSID\\" ++ c.display :=
      String.append_assoc.symm
    _ = clsidSubkey c := congrArg (· ++ c.display) hroot

theorem clsidKey_classPath (c : Clsid) :
    keyPath ("Software\\Classes\\" ++ classPath c) = clsidKey c :=
  congrArg keyPath (clsidSubkey_classPath c)

theorem inprocKey_classPath (c : Clsid) :
    keyPath ("Software\\Classes\\" ++ (classPath c ++ "\\InprocServer32")) =
      inprocKey c := by
  have hpath : "Software\\Classes\\" ++ (classPath c ++ "\\InprocServer32") =
      inprocSubkey c :=
    String.append_assoc.symm.trans
      (congrArg (· ++ "\\InprocServer32") (clsidSubkey_classPath c))
  exact congrArg keyPath hpath

theorem addedValues_generated {config : InfConfig}
    (hdll : '%' ∉ config.dllFilename.toList) :
    addedValues systemDir (generated config) =
      some (entries config.clsid config.friendlyName
        (encodeWide (systemDir ++ "\\" ++ config.dllFilename))) := by
  have hclass := percent_notMem_classPath config.clsid
  have hinproc :
      '%' ∉ (classPath config.clsid ++ "\\InprocServer32").toList := by
    rw [String.toList_append]
    exact List.mem_append.not.mpr (not_or_intro hclass (by decide))
  have hboth : expandText systemDir (generated config) (.quoted "Both".toList) =
      "Both" := expandText_plain systemDir (by decide)
  have hname : foldName "" = [] := rfl
  rw [addedValues, listed_addReg, Option.bind_some, List.mapM_cons,
    List.mapM_cons, List.mapM_cons, List.mapM_nil,
    addedValue_addRegLine systemDir hclass (by decide),
    addedValue_addRegLine systemDir hinproc (by decide),
    addedValue_addRegLine systemDir hinproc (by decide), expandText_modelName,
    expandText_path systemDir hdll, hboth, clsidKey_classPath,
    inprocKey_classPath, hname]
  rfl

end Generated

/-- Following the generated file copies the module to the system directory and
sets the values that `DllRegisterServer` of the module sets there, whatever the
registry holds. -/
theorem install_as_registered {config : InfConfig} (h : config.WellFormed)
    (hprovider : '\n' ∉ config.provider.toList)
    (hfriendly : '\n' ∉ config.friendlyName.toList)
    (hdll : '%' ∉ config.dllFilename.toList) (systemDir : String)
    {vtable : ApoVTable} (hclsid : vtable.clsid = config.clsid)
    (hname : vtable.name = config.friendlyName) {loader : Loader}
    {path : ModulePath} (hfinds : loader.Finds path)
    (hpath : path.units =
      Utf16.encode (systemDir ++ "\\" ++ config.dllFilename).toList)
    (hfits : path.units.length < 1024) (kind : Kind) :
    ∃ sections values, read (generate config).toList = some sections ∧
      copiedFiles systemDir sections =
        some [systemDir ++ "\\" ++ config.dllFilename] ∧
      addedValues systemDir sections = some values ∧
      ∀ s : System, Registry.writeAll values s.hive =
        (install kind loader [vtable] s).1.hive := by
  refine ⟨_, _, read_generate h hprovider hfriendly,
    copiedFiles_generated systemDir hdll, addedValues_generated systemDir hdll,
    fun s => ?_⟩
  have hwide : ownModulePath loader =
      .ok (encodeWide (systemDir ++ "\\" ++ config.dllFilename)) := by
    rw [ownModulePath_of_fits hfinds hfits, hpath, encodeWide]
  rw [install, dllRegisterServer_eq, dllRegisterServerDispatch, hwide]
  simp only [registerAll_allOk, List.flatMap_cons, List.flatMap_nil,
    List.append_nil, hclsid, hname]

/-- The vtable of an APO with the class and the name of the sample. -/
def sampleVTable : ApoVTable :=
  ComServer.registerApo
    { passthrough with
      clsid := sampleConfig.clsid
      name := sampleConfig.friendlyName }

/-- The place of the sample's module. -/
def samplePath : ModulePath where
  units := Utf16.encode ("C:\\W" ++ "\\" ++ sampleConfig.dllFilename).toList
  nonempty := by decide

/-- A loader that finds the sample's module there. -/
def sampleLoader : Loader where
  handle := .ok ()
  fileName := some samplePath
  lastError := errorFileNotFound

theorem install_as_registered_sampleConfig :
    ∃ sections values, read (generate sampleConfig).toList = some sections ∧
      copiedFiles "C:\\W" sections =
        some ["C:\\W" ++ "\\" ++ sampleConfig.dllFilename] ∧
      addedValues "C:\\W" sections = some values ∧
      ∀ s : System, Registry.writeAll values s.hive =
        (install .siso sampleLoader [sampleVTable] s).1.hive := by
  have hwellFormed : sampleConfig.WellFormed :=
    ⟨⟨by decide, by decide⟩, by decide⟩
  have hclsid : sampleVTable.clsid = sampleConfig.clsid := rfl
  have hname : sampleVTable.name = sampleConfig.friendlyName := rfl
  have hfinds : sampleLoader.Finds samplePath := ⟨rfl, rfl⟩
  have hfits : samplePath.units.length < 1024 := by decide
  exact install_as_registered hwellFormed (by decide) (by decide) (by decide)
    "C:\\W" hclsid hname hfinds rfl hfits .siso

end TympanApo.Inf
