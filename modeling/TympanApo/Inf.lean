import TympanApo.Clsid.Text
import TympanApo.Support.SectionText

/-!
# INF files

The generator of `inf.rs`.  The file is written for a reader of sections,
comments and quoted values; `escape_inf` lets any text stand between quotes
except one that holds a line end, and the header comment takes the friendly
name as it is.
-/

namespace TympanApo.Inf

open TympanApo.Clsid (hex)
open TympanApo.Support
open TympanApo.Support.SectionText

/-! ## Writing the file -/

/-- `InfConfig`. -/
structure InfConfig where
  provider : String
  friendlyName : String
  clsid : Clsid
  dllFilename : String
  majorVersion : UInt32
  minorVersion : UInt32
  driverDate : String

/-- `clsid_id_string`. -/
def clsidIdString (c : Clsid) : String :=
  hex 8 c.data1.toNat ++ hex 4 c.data2.toNat ++ hex 4 c.data3.toNat ++
    String.join (c.data4.toList.map fun b => hex 2 b.toNat)

/-- `str::trim_start_matches` of a character. -/
def trimStartMatches (s : String) (ch : Char) : String :=
  String.ofList (s.toList.dropWhile (· == ch))

/-- `str::trim_end_matches` of a character. -/
def trimEndMatches (s : String) (ch : Char) : String :=
  String.ofList (s.toList.rdropWhile (· == ch))

/-- `clsid_no_braces`. -/
def clsidNoBraces (c : Clsid) : String :=
  trimEndMatches (trimStartMatches c.display '\x7b') '\x7d'

/-- The key of the class in the lines of `[ApoAddReg]`. -/
def clsidBrace (c : Clsid) : String :=
  "\x7b" ++ clsidNoBraces c ++ "\x7d"

/-- `escape_inf`. -/
def escapeInf (s : String) : String :=
  String.ofList (doubleQuotes '"' s.toList)

/-- `writeln!` of a format string, cut at its arguments. -/
def writeln (pieces : List String) : String :=
  String.join pieces ++ "\n"

/-! The pieces that `generate` pushes, from one comment of its body to the
next. -/

def preamble (config : InfConfig) : List String :=
  [ writeln ["; Generated by tympan-apo — INF for ", config.friendlyName],
    ";\n",
    "; This is a starting template. Real deployments typically need\n",
    "; hand-tuning of [Manufacturer] flags, CatalogFile, and the\n",
    "; install-time co-installer chain.\n\n" ]

def version (config : InfConfig) : List String :=
  [ "[Version]\n",
    "Signature   = \"$WINDOWS NT$\"\n",
    "Class       = MEDIA\n",
    "ClassGuid   = \x7b4d36e96c-e325-11ce-bfc1-08002be10318\x7d\n",
    "Provider    = %ProviderName%\n",
    writeln ["DriverVer   = ", config.driverDate, ",",
      toString config.majorVersion.toNat, ".",
      toString config.minorVersion.toNat, ".0.0"],
    "\n" ]

def destinationDirs : List String :=
  [ "[DestinationDirs]\n",
    "DefaultDestDir = 11\n",
    "\n" ]

def sourceDisks (config : InfConfig) : List String :=
  [ "[SourceDisksNames]\n",
    "1 = %DiskName%\n",
    "\n",
    "[SourceDisksFiles]\n",
    writeln [config.dllFilename, " = 1"] ]

def manufacturer (config : InfConfig) : List String :=
  [ "[Manufacturer]\n",
    "%ProviderName% = ApoModels, NTamd64\n\n",
    "[ApoModels.NTamd64]\n",
    writeln ["%ModelName% = ApoInstall, ROOT\\",
      clsidIdString config.clsid] ]

def apoInstall (config : InfConfig) : List String :=
  [ "[ApoInstall]\n",
    "CopyFiles = ApoFiles\n",
    "AddReg    = ApoAddReg\n\n",
    "[ApoFiles]\n",
    writeln [config.dllFilename] ]

def apoAddReg (config : InfConfig) : List String :=
  let clsidBrace := clsidBrace config.clsid
  [ "[ApoAddReg]\n",
    writeln ["HKCR,CLSID\\", clsidBrace, ",,0,%ModelName%"],
    writeln ["HKCR,CLSID\\", clsidBrace, "\\InprocServer32,,0,\"%11%\\",
      config.dllFilename, "\""],
    writeln ["HKCR,CLSID\\", clsidBrace,
      "\\InprocServer32,ThreadingModel,0,\"Both\""] ]

def strings (config : InfConfig) : List String :=
  [ "[Strings]\n",
    writeln ["ProviderName = \"", escapeInf config.provider, "\""],
    writeln ["ModelName    = \"", escapeInf config.friendlyName, "\""],
    "DiskName     = \"tympan-apo cdylib\"\n" ]

/-- `generate`. -/
def generate (config : InfConfig) : String :=
  String.join
    (preamble config ++ version config ++ destinationDirs ++
      sourceDisks config ++ manufacturer config ++ apoInstall config ++
      apoAddReg config ++ strings config)

/-! ## What the file should say -/

/-- The sections of the file, in order. -/
def sectionNames : List String :=
  ["Version", "DestinationDirs", "SourceDisksNames", "SourceDisksFiles",
    "Manufacturer", "ApoModels.NTamd64", "ApoInstall", "ApoFiles",
    "ApoAddReg", "Strings"]

/-- The keys of the directives of each section; `none` for a directive without
a key. -/
def directiveKeys (config : InfConfig) : List (List (Option String)) :=
  [ [some "Signature", some "Class", some "ClassGuid", some "Provider",
      some "DriverVer"],
    [some "DefaultDestDir"],
    [some "1"],
    [some config.dllFilename],
    [some "%ProviderName%"],
    [some "%ModelName%"],
    [some "CopyFiles", some "AddReg"],
    [none],
    [none, none, none],
    [some "ProviderName", some "ModelName", some "DiskName"] ]

/-- The values of a key in a section. -/
def valuesOf (sections : List Section) (name key : String) :
    Option (List Value) :=
  (sections.find? (·.name = name.toList)).bind fun s =>
    (s.directives.find? (·.key = some key.toList)).map (·.values)

/-- The file has these sections and directives and no others, and its strings
are those of the configuration. -/
structure Faithful (config : InfConfig) (sections : List Section) : Prop where
  names : sections.map (·.name) = sectionNames.map String.toList
  keys : sections.map (fun s => s.directives.map (·.key)) =
    (directiveKeys config).map fun keys => keys.map (·.map String.toList)
  provider : valuesOf sections "Strings" "ProviderName" =
    some [.quoted config.provider.toList]
  friendlyName : valuesOf sections "Strings" "ModelName" =
    some [.quoted config.friendlyName.toList]

/-- Reading the generated file succeeds and gives back what was put in. -/
def ReadsBack (config : InfConfig) : Prop :=
  ∃ sections, read (generate config).toList = some sections ∧
    Faithful config sections

/-- A file name of characters without a meaning in the grammar. -/
def LeafName (name : String) : Prop :=
  name.toList ≠ [] ∧ Plain name.toList

/-- Names of letters, digits, `_`, `-` and `.` are leaf names. -/
theorem leafName_of_chars {name : String} (hne : name.toList ≠ [])
    (h : ∀ ch ∈ name.toList,
      (ch.isAlphanum || ['_', '-', '.'].contains ch) = true) : LeafName name :=
  ⟨hne, fun ch hch => ordinary_of_class
    (p := fun ch => ch.isAlphanum || ['_', '-', '.'].contains ch) (by decide)
    (h ch hch)⟩

/-- `MM/DD/YYYY`. -/
def isDate : List Char → Bool
  | [m₁, m₂, '/', d₁, d₂, '/', y₁, y₂, y₃, y₄] =>
      [m₁, m₂, d₁, d₂, y₁, y₂, y₃, y₄].all Char.isDigit
  | _ => false

/-- What is asked of the fields that are not quoted. -/
structure InfConfig.WellFormed (config : InfConfig) : Prop where
  leaf : LeafName config.dllFilename
  date : isDate config.driverDate.toList = true

/-! ## The lines of the file -/

def plain (pad : ℕ) (s : String) : Field where
  pad := pad
  value := .plain s.toList

def quoted (pad : ℕ) (s : String) : Field where
  pad := pad
  value := .quoted s.toList

/-- The path of the class below `HKCR`. -/
def classPath (c : Clsid) : String :=
  "CLSID\\" ++ clsidBrace c

def preambleLines (config : InfConfig) : List Entry :=
  [ .comment (" Generated by tympan-apo — INF for ".toList ++
      config.friendlyName.toList),
    .comment [],
    .comment
      " This is a starting template. Real deployments typically need".toList,
    .comment
      " hand-tuning of [Manufacturer] flags, CatalogFile, and the".toList,
    .comment " install-time co-installer chain.".toList,
    .blank ]

def versionLines (config : InfConfig) : List Entry :=
  [ .header "Version".toList,
    .assign "Signature".toList 3 (quoted 1 "$WINDOWS NT$") [],
    .assign "Class".toList 7 (plain 1 "MEDIA") [],
    .assign "ClassGuid".toList 3
      (plain 1 "\x7b4d36e96c-e325-11ce-bfc1-08002be10318\x7d") [],
    .assign "Provider".toList 4 (plain 1 "%ProviderName%") [],
    .assign "DriverVer".toList 3 (plain 1 config.driverDate)
      [plain 0 (toString config.majorVersion.toNat ++ "." ++
        toString config.minorVersion.toNat ++ ".0.0")],
    .blank ]

def destinationDirsLines : List Entry :=
  [ .header "DestinationDirs".toList,
    .assign "DefaultDestDir".toList 1 (plain 1 "11") [],
    .blank ]

def sourceDisksLines (config : InfConfig) : List Entry :=
  [ .header "SourceDisksNames".toList,
    .assign "1".toList 1 (plain 1 "%DiskName%") [],
    .blank,
    .header "SourceDisksFiles".toList,
    .assign config.dllFilename.toList 1 (plain 1 "1") [] ]

def manufacturerLines (config : InfConfig) : List Entry :=
  [ .header "Manufacturer".toList,
    .assign "%ProviderName%".toList 1 (plain 1 "ApoModels")
      [plain 1 "NTamd64"],
    .blank,
    .header "ApoModels.NTamd64".toList,
    .assign "%ModelName%".toList 1 (plain 1 "ApoInstall")
      [plain 1 ("ROOT\\" ++ clsidIdString config.clsid)] ]

def apoInstallLines (config : InfConfig) : List Entry :=
  [ .header "ApoInstall".toList,
    .assign "CopyFiles".toList 1 (plain 1 "ApoFiles") [],
    .assign "AddReg".toList 4 (plain 1 "ApoAddReg") [],
    .blank,
    .header "ApoFiles".toList,
    .bare config.dllFilename.toList [] ]

def apoAddRegLines (config : InfConfig) : List Entry :=
  [ .header "ApoAddReg".toList,
    .bare "HKCR".toList
      [plain 0 (classPath config.clsid), plain 0 "", plain 0 "0",
        plain 0 "%ModelName%"],
    .bare "HKCR".toList
      [plain 0 (classPath config.clsid ++ "\\InprocServer32"), plain 0 "",
        plain 0 "0", quoted 0 ("%11%\\" ++ config.dllFilename)],
    .bare "HKCR".toList
      [plain 0 (classPath config.clsid ++ "\\InprocServer32"),
        plain 0 "ThreadingModel", plain 0 "0", quoted 0 "Both"] ]

def stringsLines (config : InfConfig) : List Entry :=
  [ .header "Strings".toList,
    .assign "ProviderName".toList 1 (quoted 1 config.provider) [],
    .assign "ModelName".toList 4 (quoted 1 config.friendlyName) [],
    .assign "DiskName".toList 5 (quoted 1 "tympan-apo cdylib") [] ]

def lines (config : InfConfig) : List Entry :=
  preambleLines config ++ versionLines config ++ destinationDirsLines ++
    sourceDisksLines config ++ manufacturerLines config ++
    apoInstallLines config ++ apoAddRegLines config ++ stringsLines config

section Lines

variable (config : InfConfig)

attribute [local simp] writeln write Entry.write writeFields Field.write
  Value.write plain quoted

theorem toList_preamble :
    (preamble config).flatMap String.toList = write (preambleLines config) := by
  simp [preamble, preambleLines]

theorem toList_version :
    (version config).flatMap String.toList = write (versionLines config) := by
  simp [version, versionLines, doubleQuotes]

theorem toList_destinationDirs :
    destinationDirs.flatMap String.toList = write destinationDirsLines := by
  simp [destinationDirs, destinationDirsLines]

theorem toList_sourceDisks :
    (sourceDisks config).flatMap String.toList =
      write (sourceDisksLines config) := by
  simp [sourceDisks, sourceDisksLines]

theorem toList_manufacturer :
    (manufacturer config).flatMap String.toList =
      write (manufacturerLines config) := by
  simp [manufacturer, manufacturerLines]

theorem toList_apoInstall :
    (apoInstall config).flatMap String.toList =
      write (apoInstallLines config) := by
  simp [apoInstall, apoInstallLines]

theorem toList_apoAddReg (hdll : Plain config.dllFilename.toList) :
    (apoAddReg config).flatMap String.toList =
      write (apoAddRegLines config) := by
  have hquoted : config.dllFilename.toList.flatMap
      (fun c => if c = '"' then ['"', '"'] else [c]) =
        config.dllFilename.toList :=
    doubleQuotes_of_notMem (hdll.notMem (by decide))
  simp [apoAddReg, apoAddRegLines, classPath, doubleQuotes, hquoted]

theorem toList_strings :
    (strings config).flatMap String.toList = write (stringsLines config) := by
  simp [strings, stringsLines, escapeInf, doubleQuotes]

/-- The file is these lines. -/
theorem toList_generate (hdll : Plain config.dllFilename.toList) :
    (generate config).toList = write (lines config) := by
  have hwrite : ∀ es es', write (es ++ es') = write es ++ write es' :=
    fun _ _ => List.flatMap_append
  rw [generate, lines, String.toList_join]
  simp only [List.flatMap_append, hwrite, toList_preamble, toList_version,
    toList_destinationDirs, toList_sourceDisks, toList_manufacturer,
    toList_apoInstall, toList_apoAddReg config hdll, toList_strings]

end Lines

/-! ## What the lines may hold -/

theorem plain_of_isDigit {l : List Char} (h : ∀ ch ∈ l, ch.isDigit = true) :
    Plain l := fun ch hch =>
  ordinary_of_class (by decide) (h ch hch)

theorem plain_hexChars (w n : ℕ) : Plain (hexChars w n) :=
  forall_mem_hexChars (by decide)

theorem plain_toString (n : ℕ) : Plain (toString n).toList :=
  plain_of_isDigit fun ch hch => by
    rw [Nat.toString_eq_repr, Nat.toList_repr] at hch
    exact Nat.isDigit_of_mem_toDigits (by decide) (by decide) hch

theorem plain_append {l l' : List Char} (h : Plain l) (h' : Plain l') :
    Plain (l ++ l') :=
  List.forall_mem_append.mpr ⟨h, h'⟩

theorem plain_of_isDate {l : List Char} (h : isDate l = true) : Plain l := by
  unfold isDate at h
  split at h
  next =>
    simp only [List.all_cons, List.all_nil, Bool.and_eq_true, and_true] at h
    have hslash : ordinary '/' = true := by decide
    have hdigit : ∀ ch, ch.isDigit = true → ordinary ch = true :=
      fun ch => ordinary_of_class (by decide)
    simp [Plain, h, hdigit, hslash]
  next => cases h

theorem plain_display (c : Clsid) : Plain c.display.toList :=
  Clsid.forall_mem_display (by decide) (by decide) (by decide) (by decide) c

/-- The text between the braces, by trimming. -/
theorem toList_clsidNoBraces (c : Clsid) :
    (clsidNoBraces c).toList = c.dashed := by
  have hopen : ∀ ch ∈ c.dashed ++ ['\x7d'], (ch == '\x7b') = false := by
    exact List.forall_mem_append.mpr
      ⟨Clsid.forall_mem_dashed (by decide) (by decide) c,
        List.forall_mem_singleton.mpr (by decide)⟩
  have hclose : ∀ ch ∈ c.dashed, (ch == '\x7d') = false :=
    Clsid.forall_mem_dashed (by decide) (by decide) c
  rw [clsidNoBraces, trimEndMatches, trimStartMatches, String.toList_ofList,
    String.toList_ofList, Clsid.toList_display, List.cons_append,
    List.dropWhile_cons, if_pos (by decide),
    List.dropWhile_eq_self_iff.mpr fun _ => by simp [hopen],
    List.rdropWhile_concat_pos _ _ _ (by decide)]
  exact List.rdropWhile_eq_self_iff.mpr fun _ => by simp [hclose]

/-- Wrapped in braces again it is the text of `Display`. -/
theorem clsidBrace_eq (c : Clsid) : clsidBrace c = c.display := by
  refine String.toList_inj.mp ?_
  rw [clsidBrace, String.toList_append, String.toList_append,
    toList_clsidNoBraces, Clsid.toList_display]
  rfl

theorem plain_clsidIdString (c : Clsid) : Plain (clsidIdString c).toList := by
  simp only [clsidIdString, String.toList_append, Clsid.toList_hex,
    String.toList_join, List.flatMap_map]
  refine plain_append (plain_append (plain_append (plain_hexChars _ _)
    (plain_hexChars _ _)) (plain_hexChars _ _)) fun ch hch => ?_
  obtain ⟨b, -, hch⟩ := List.mem_flatMap.mp hch
  exact plain_hexChars _ _ ch hch

theorem plain_classPath (c : Clsid) : Plain (classPath c).toList := by
  rw [classPath, clsidBrace_eq, String.toList_append]
  exact plain_append (by decide) (plain_display c)

theorem plain_versionNumber (major minor : ℕ) :
    Plain (toString major ++ "." ++ toString minor ++ ".0.0").toList := by
  simp only [String.toList_append]
  exact plain_append (plain_append (plain_append (plain_toString major)
    (by decide)) (plain_toString minor)) (by decide)

section WellFormed

variable {config : InfConfig}

theorem wellFormed_preamble (hfriendly : '\n' ∉ config.friendlyName.toList) :
    ∀ e ∈ preambleLines config, e.WellFormed := by
  have hheader : '\n' ∉ " Generated by tympan-apo — INF for ".toList ++
      config.friendlyName.toList :=
    List.mem_append.not.mpr (not_or_intro (by decide) hfriendly)
  simp only [preambleLines, List.forall_mem_cons]
  exact ⟨hheader, by decide, by decide, by decide, by decide, by decide,
    List.forall_mem_nil _⟩

theorem wellFormed_version (hdate : isDate config.driverDate.toList = true) :
    ∀ e ∈ versionLines config, e.WellFormed := by
  have hdriverVer : (Entry.assign "DriverVer".toList 3
      (plain 1 config.driverDate)
      [plain 0 (toString config.majorVersion.toNat ++ "." ++
        toString config.minorVersion.toNat ++ ".0.0")]).WellFormed :=
    ⟨by decide, List.forall_mem_cons.mpr ⟨plain_of_isDate hdate,
      List.forall_mem_singleton.mpr (plain_versionNumber _ _)⟩⟩
  simp only [versionLines, List.forall_mem_cons]
  exact ⟨by decide, by decide, by decide, by decide, by decide, hdriverVer,
    by decide, List.forall_mem_nil _⟩

theorem wellFormed_sourceDisks (hdll : LeafName config.dllFilename) :
    ∀ e ∈ sourceDisksLines config, e.WellFormed := by
  simp only [sourceDisksLines, List.forall_mem_cons]
  exact ⟨by decide, by decide, by decide, by decide, ⟨hdll, by decide⟩,
    List.forall_mem_nil _⟩

theorem wellFormed_manufacturer :
    ∀ e ∈ manufacturerLines config, e.WellFormed := by
  have hdeviceId : Plain ("ROOT\\" ++ clsidIdString config.clsid).toList := by
    rw [String.toList_append]
    exact plain_append (by decide) (plain_clsidIdString config.clsid)
  simp only [manufacturerLines, List.forall_mem_cons]
  exact ⟨by decide, by decide, by decide, by decide,
    ⟨by decide, List.forall_mem_cons.mpr ⟨by decide,
      List.forall_mem_singleton.mpr hdeviceId⟩⟩, List.forall_mem_nil _⟩

theorem wellFormed_apoInstall (hdll : LeafName config.dllFilename) :
    ∀ e ∈ apoInstallLines config, e.WellFormed := by
  simp only [apoInstallLines, List.forall_mem_cons]
  exact ⟨by decide, by decide, by decide, by decide, by decide,
    ⟨hdll, List.forall_mem_nil _⟩, List.forall_mem_nil _⟩

theorem wellFormed_apoAddReg (hdll : LeafName config.dllFilename) :
    ∀ e ∈ apoAddRegLines config, e.WellFormed := by
  have hkey := plain_classPath config.clsid
  have hinproc :
      Plain (classPath config.clsid ++ "\\InprocServer32").toList := by
    rw [String.toList_append]
    exact plain_append hkey (by decide)
  have hpath : '\n' ∉ ("%11%\\" ++ config.dllFilename).toList := by
    rw [String.toList_append]
    exact List.mem_append.not.mpr
      (not_or_intro (by decide) (hdll.2.notMem (by decide)))
  simp only [apoAddRegLines, List.forall_mem_cons]
  refine ⟨by decide, ⟨by decide, ?_⟩, ⟨by decide, ?_⟩, ⟨by decide, ?_⟩,
    List.forall_mem_nil _⟩
  all_goals simp only [List.forall_mem_cons]
  · exact ⟨hkey, by decide, by decide, by decide, List.forall_mem_nil _⟩
  · exact ⟨hinproc, by decide, by decide, hpath, List.forall_mem_nil _⟩
  · exact ⟨hinproc, by decide, by decide, by decide, List.forall_mem_nil _⟩

theorem wellFormed_strings (hprovider : '\n' ∉ config.provider.toList)
    (hfriendly : '\n' ∉ config.friendlyName.toList) :
    ∀ e ∈ stringsLines config, e.WellFormed := by
  simp only [stringsLines, List.forall_mem_cons]
  exact ⟨by decide, ⟨by decide, List.forall_mem_singleton.mpr hprovider⟩,
    ⟨by decide, List.forall_mem_singleton.mpr hfriendly⟩, by decide,
    List.forall_mem_nil _⟩

/-- A configuration whose names take one line gives lines that read back. -/
theorem wellFormed_lines (h : config.WellFormed)
    (hprovider : '\n' ∉ config.provider.toList)
    (hfriendly : '\n' ∉ config.friendlyName.toList) :
    ∀ e ∈ lines config, e.WellFormed := by
  have hdestinationDirs : ∀ e ∈ destinationDirsLines, e.WellFormed := by
    decide
  simp only [lines, List.forall_mem_append]
  exact ⟨⟨⟨⟨⟨⟨⟨wellFormed_preamble hfriendly, wellFormed_version h.date⟩,
    hdestinationDirs⟩, wellFormed_sourceDisks h.leaf⟩,
    wellFormed_manufacturer⟩, wellFormed_apoInstall h.leaf⟩,
    wellFormed_apoAddReg h.leaf⟩, wellFormed_strings hprovider hfriendly⟩

end WellFormed

/-! ## Reading the file back -/

theorem faithful_lines (config : InfConfig) :
    Faithful config (gather ((lines config).map Entry.line)).2 where
  names := rfl
  keys := rfl
  provider := rfl
  friendlyName := rfl

variable {config : InfConfig}

theorem readsBack_of_one_line (h : config.WellFormed)
    (hprovider : '\n' ∉ config.provider.toList)
    (hfriendly : '\n' ∉ config.friendlyName.toList) : ReadsBack config := by
  refine ⟨(gather ((lines config).map Entry.line)).2, ?_,
    faithful_lines config⟩
  rw [toList_generate config h.leaf.2]
  exact read_write (wellFormed_lines h hprovider hfriendly) (Prod.ext rfl rfl)

theorem newline_notMem_of_valuesOf {text : List Char}
    {sections : List Section} {name key : String} {values : List Value}
    (hread : read text = some sections)
    (hvalues : valuesOf sections name key = some values) {v : Value}
    (hv : v ∈ values) : '\n' ∉ v.text := by
  obtain ⟨s, hs, hkey⟩ := Option.bind_eq_some_iff.mp hvalues
  obtain ⟨d, hd, rfl⟩ := Option.map_eq_some_iff.mp hkey
  exact newline_notMem_of_read hread (List.mem_of_find?_eq_some hs)
    (List.mem_of_find?_eq_some hd) hv

/-- A name that is read back takes one line. -/
theorem ReadsBack.one_line (h : ReadsBack config) :
    '\n' ∉ config.provider.toList ∧ '\n' ∉ config.friendlyName.toList := by
  obtain ⟨sections, hread, hfaithful⟩ := h
  exact ⟨newline_notMem_of_valuesOf hread hfaithful.provider
      (List.mem_singleton_self _),
    newline_notMem_of_valuesOf hread hfaithful.friendlyName
      (List.mem_singleton_self _)⟩

/-- The generated file reads back exactly when neither name holds a line
end. -/
theorem readsBack_iff (h : config.WellFormed) :
    ReadsBack config ↔
      '\n' ∉ config.provider.toList ∧ '\n' ∉ config.friendlyName.toList :=
  ⟨ReadsBack.one_line, fun hnames =>
    readsBack_of_one_line h hnames.1 hnames.2⟩

/-- `sample_config` of the tests. -/
def sampleConfig : InfConfig where
  provider := "tympan-apo"
  friendlyName := "Test APO"
  clsid := Clsid.fromU128 0x12345678123456781234567812345678
  dllFilename := "test_apo.dll"
  majorVersion := 1
  minorVersion := 0
  driverDate := "01/01/2026"

theorem readsBack_sampleConfig : ReadsBack sampleConfig :=
  (readsBack_iff ⟨⟨by decide, by decide⟩, by decide⟩).mpr
    ⟨by decide, by decide⟩

/-- The sample with a header of a section in the friendly name. -/
def twoLineConfig : InfConfig :=
  { sampleConfig with friendlyName := "Test APO\n[Strings]" }

theorem not_readsBack_twoLineConfig :
    twoLineConfig.WellFormed ∧ ¬ ReadsBack twoLineConfig :=
  ⟨⟨⟨by decide, by decide⟩, by decide⟩, fun h => h.one_line.2 (by decide)⟩

end TympanApo.Inf
