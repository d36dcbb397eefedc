import TympanApo.Raw.Register

/-!
# Registration and its removal

What an answer of `dll_register_server_dispatch` says about the registry, for
every outcome of the calls, and what `dll_unregister_server_dispatch` leaves
behind after a registration that may have stopped anywhere.
-/

namespace TympanApo.Register

open TympanApo.ComServer (ApoVTable)
open TympanApo.Support
open TympanApo.Win32

/-! ## The loop of the registration -/

/-- The class keys of the vtables. -/
def ClassKeys (registry : List ApoVTable) (top : HKey) : Prop :=
  ∃ v ∈ registry, top = clsidKey v.clsid

section Loop

variable {calls : ℕ → WriteOutcomes} {registry : List ApoVTable}
variable (wide : List UInt16) (s : System)

/-- Whatever fails, the loop stays at and below the class keys. -/
theorem confined_registerAll :
    Registry.Confined (ClassKeys registry) s.hive
      (registerAll calls wide registry s).1.hive := by
  induction registry generalizing calls s with
  | nil => exact Registry.Confined.refl _ _
  | cons v registry ih =>
      have hfirst : Registry.Confined (ClassKeys (v :: registry)) s.hive
          (writeRegistry (calls 0) v wide s).1.hive := by
        refine (confined_writeRegistryWith _ _ _ _ _).mono ?_
        rintro top rfl
        exact ⟨v, List.mem_cons_self, rfl⟩
      have hrest : ∀ s', Registry.Confined (ClassKeys (v :: registry)) s'.hive
          (registerAll (fun i => calls (i + 1)) wide registry s').1.hive := by
        intro s'
        refine (ih s').mono ?_
        rintro top ⟨u, hu, rfl⟩
        exact ⟨u, List.mem_cons_of_mem v hu, rfl⟩
      rw [registerAll]
      split
      next s' e heq =>
        rw [heq] at hfirst
        exact hfirst
      next s' heq =>
        rw [heq] at hfirst
        exact hfirst.trans (hrest s')

/-- When all checked calls succeed, every class is registered. -/
theorem registerAll_of_checksPass
    (h : ∀ i < registry.length, (calls i).ChecksPass)
    (hdistinct : (registry.map (·.clsid)).Nodup) :
    ∃ s', registerAll calls wide registry s = (s', HResult.sOk) ∧
      (∀ v ∈ registry, Wrote v.clsid v.name wide
        (∀ i < registry.length, (calls i).setName = .ok) s'.hive) ∧
      (s'.failures = [] ↔ s.failures = [] ∧
        ∀ i < registry.length, (calls i).setName = .ok) := by
  induction registry generalizing calls s with
  | nil => exact ⟨s, rfl, by simp, by simp⟩
  | cons v registry ih =>
      rw [List.length_cons, Nat.forall_lt_succ_left] at h
      obtain ⟨hnotMem, hdistinct⟩ := List.nodup_cons.mp hdistinct
      obtain ⟨s₁, hwrite, hwrote, hfailures₁⟩ := writeRegistryWith_of_checksPass
        (calls 0) v.clsid v.name wide s h.1
      obtain ⟨s₂, hloop, hrest, hfailures₂⟩ := ih s₁ h.2 hdistinct
      have hstep : registerAll calls wide (v :: registry) s =
          (s₂, HResult.sOk) := by
        rw [registerAll, writeRegistry, hwrite]
        exact hloop
      have hconfined : Registry.Confined (ClassKeys registry) s₁.hive
          (registerAll (fun i => calls (i + 1)) wide registry s₁).1.hive :=
        confined_registerAll wide s₁
      rw [hloop] at hconfined
      rw [List.length_cons, Nat.forall_lt_succ_left]
      refine ⟨s₂, hstep, ?_, ?_⟩
      · intro u hu
        rcases List.mem_cons.mp hu with rfl | hu
        · refine (hwrote.mono And.left).of_confined hconfined ?_
          rintro top ⟨w, hw, rfl⟩
          refine ⟨w.clsid, ?_, rfl⟩
          intro heq
          exact hnotMem (List.mem_map.mpr ⟨w, hw, heq.symm⟩)
        · exact (hrest u hu).mono And.right
      · rw [hfailures₂, hfailures₁, and_assoc]

/-- When a checked call fails, the answer is its failure. -/
theorem registerAll_of_not_checksPass
    (h : ∃ i < registry.length, ¬ (calls i).ChecksPass) :
    (registerAll calls wide registry s).2.isErr = true := by
  induction registry generalizing calls s with
  | nil =>
      obtain ⟨i, hi, -⟩ := h
      exact absurd hi (Nat.not_lt_zero i)
  | cons v registry ih =>
      by_cases hfirst : (calls 0).ChecksPass
      · obtain ⟨s₁, hwrite, -⟩ := writeRegistryWith_of_checksPass
          (calls 0) v.clsid v.name wide s hfirst
        rw [registerAll, writeRegistry, hwrite]
        refine ih s₁ ?_
        obtain ⟨i, hi, hfails⟩ := h
        cases i with
        | zero => exact absurd hfirst hfails
        | succ i => exact ⟨i, Nat.succ_lt_succ_iff.mp hi, hfails⟩
      · obtain ⟨s₁, e, hwrite⟩ := writeRegistryWith_of_not_checksPass
          (calls 0) v.clsid v.name wide s hfirst
        rw [registerAll, writeRegistry, hwrite]
        exact e.failing

end Loop

/-! ## What the answer says -/

/-- The three values that are documented for a registered APO. -/
structure Documented (hive : Hive) (vtable : ApoVTable) (path : List UInt16) :
    Prop where
  name : hive.value (clsidKey vtable.clsid) [] =
    some (regSz (encodeWide vtable.name))
  path : hive.value (inprocKey vtable.clsid) [] = some (regSz (path ++ [0]))
  threading : hive.value (inprocKey vtable.clsid) (foldName "ThreadingModel") =
    some (regSz (encodeWide "Both"))

/-- `S_OK` means that every APO is registered with the whole path of the
module, and a failed registry call is answered by a failure. -/
structure AnswersTruly (loader : Loader) (registry : List ApoVTable)
    (s' : System) (hr : HResult) : Prop where
  complete : hr = HResult.sOk → ∃ path, loader.fileName = some path ∧
    ∀ v ∈ registry, Documented s'.hive v path.units
  reported : s'.failures ≠ [] → hr.isErr = true

theorem isErr_sOk : ¬ HResult.sOk.isErr = true := by
  decide

/-- A failing answer is true. -/
theorem answersTruly_of_isErr {loader : Loader} {registry : List ApoVTable}
    {s' : System} {hr : HResult} (h : hr.isErr = true) :
    AnswersTruly loader registry s' hr :=
  ⟨fun heq => absurd (heq ▸ h) isErr_sOk, fun _ => h⟩

/-- Without a module the answer is the failure of the loader. -/
theorem isErr_of_not_finds {loader : Loader}
    (h : ∀ path, ¬ loader.Finds path) (calls : ℕ → WriteOutcomes)
    (registry : List ApoVTable) (s : System) :
    (dllRegisterServerDispatch loader calls registry s).2.isErr = true := by
  obtain ⟨e, herror⟩ := ownModulePath_of_not_finds h
  rw [dllRegisterServerDispatch, herror]
  exact e.failing

/-- When all checked calls succeed, the answer is true if every name was set
and the path that was written is the whole one. -/
theorem answersTruly_iff_of_checksPass {loader : Loader} {path : ModulePath}
    (hpath : loader.fileName = some path) {buf : List UInt16}
    {calls : ℕ → WriteOutcomes} {registry : List ApoVTable} {hive : Hive}
    (hpass : ∀ i < registry.length, (calls i).ChecksPass)
    (hdistinct : (registry.map (·.clsid)).Nodup) :
    (let out := registerAll calls buf registry { hive, failures := [] }
     AnswersTruly loader registry out.1 out.2) ↔
      (∀ i < registry.length, (calls i).setName = .ok) ∧
        (registry = [] ∨ buf = path.units ++ [0]) := by
  obtain ⟨s', hloop, hwrote, hfailures⟩ := registerAll_of_checksPass buf
    { hive, failures := [] } hpass hdistinct
  rw [hloop]
  constructor
  · rintro ⟨hcomplete, hreported⟩
    have hnone : s'.failures = [] := by
      by_contra hsome
      exact isErr_sOk (hreported hsome)
    refine ⟨(hfailures.mp hnone).2, ?_⟩
    obtain ⟨path', hpath', hdocumented⟩ := hcomplete rfl
    obtain rfl := Option.some.inj (hpath.symm.trans hpath')
    cases registry with
    | nil => exact Or.inl rfl
    | cons v registry =>
        right
        have hwritten := (hwrote v List.mem_cons_self).path
        rw [(hdocumented v List.mem_cons_self).path] at hwritten
        exact (regSz_injective (Option.some.inj hwritten)).symm
  · rintro ⟨hnamed, hwhole⟩
    refine ⟨fun _ => ⟨path, hpath, fun v hv => ?_⟩, fun hsome => ?_⟩
    · have hbuf : buf = path.units ++ [0] := by
        rcases hwhole with rfl | hbuf
        · cases hv
        · exact hbuf
      obtain ⟨hname, hinproc, hthreading⟩ := hwrote v hv
      exact ⟨hname hnamed, hbuf ▸ hinproc, hthreading⟩
    · exact absurd (hfailures.mpr ⟨rfl, hnamed⟩) hsome

/-- For every registry of distinct classes, every module and every outcome of
the calls: the answer is true if and only if there was no module, or a checked
call failed, or every name was set and the module path fits. -/
theorem answersTruly_iff (loader : Loader) (calls : ℕ → WriteOutcomes)
    (registry : List ApoVTable) (hive : Hive)
    (hdistinct : (registry.map (·.clsid)).Nodup) :
    (let out := dllRegisterServerDispatch loader calls registry
      { hive, failures := [] }
     AnswersTruly loader registry out.1 out.2) ↔
      (∀ path, ¬ loader.Finds path) ∨
      (∃ i < registry.length, ¬ (calls i).ChecksPass) ∨
      ((∀ i < registry.length, (calls i).setName = .ok) ∧
        (registry = [] ∨ ∃ path, loader.Finds path ∧
          path.units.length < 1024)) := by
  by_cases hfinds : ∃ path, loader.Finds path
  · obtain ⟨path, hfinds⟩ := hfinds
    obtain ⟨buf, hbuf, hwhole⟩ := hfinds.ownModulePath
    have hout : dllRegisterServerDispatch loader calls registry
        { hive, failures := [] } =
          registerAll calls buf registry { hive, failures := [] } := by
      rw [dllRegisterServerDispatch, hbuf]
    have hsome : ¬ ∀ path, ¬ loader.Finds path := fun h => h path hfinds
    have honly : (∃ path, loader.Finds path ∧ path.units.length < 1024) ↔
        path.units.length < 1024 := by
      constructor
      · rintro ⟨path', hfinds', hfits⟩
        obtain rfl := Option.some.inj (hfinds.2.symm.trans hfinds'.2)
        exact hfits
      · exact fun hfits => ⟨path, hfinds, hfits⟩
    rw [hout, honly, ← hwhole, or_iff_right hsome]
    by_cases hchecks : ∃ i < registry.length, ¬ (calls i).ChecksPass
    · exact iff_of_true
        (answersTruly_of_isErr (registerAll_of_not_checksPass buf _ hchecks))
        (Or.inl hchecks)
    · have hpass : ∀ i < registry.length, (calls i).ChecksPass := by
        simpa using hchecks
      rw [or_iff_right hchecks]
      exact answersTruly_iff_of_checksPass hfinds.2 hpass hdistinct
  · have hnone := not_exists.mp hfinds
    exact iff_of_true
      (answersTruly_of_isErr (isErr_of_not_finds hnone calls registry _))
      (Or.inl hnone)

/-- Every call of one registration succeeds. -/
def WriteOutcomes.allOk : WriteOutcomes where
  createClsid := .ok
  setName := .ok
  createInproc := .ok
  setPath := .ok
  setThreading := .ok

/-- `ERROR_ACCESS_DENIED` as an error. -/
def accessDenied : Failure where
  code := HResult.ofBits 0x80070005
  failing := by decide

/-- A loader that knows the module as `a`. -/
def shortPathLoader : Loader where
  handle := .ok ()
  fileName := some ⟨[97], by decide⟩
  lastError := errorFileNotFound

/-- The fixture is registered when every call succeeds. -/
theorem answersTruly_passthrough :
    let out := dllRegisterServerDispatch shortPathLoader
      (fun _ => WriteOutcomes.allOk) [ComServer.registerApo passthrough]
      { hive := Registry.empty, failures := [] }
    AnswersTruly shortPathLoader [ComServer.registerApo passthrough]
      out.1 out.2 :=
  (answersTruly_iff shortPathLoader (fun _ => WriteOutcomes.allOk)
    [ComServer.registerApo passthrough] Registry.empty (by simp)).mpr
    (Or.inr (Or.inr ⟨fun _ _ => rfl, Or.inr ⟨_, ⟨rfl, rfl⟩, by decide⟩⟩))

/-- The name of the fixture is refused, and the answer is `S_OK`. -/
theorem not_answersTruly_name_refused :
    let out := dllRegisterServerDispatch shortPathLoader
      (fun _ => { WriteOutcomes.allOk with setName := .failed accessDenied })
      [ComServer.registerApo passthrough]
      { hive := Registry.empty, failures := [] }
    out.2 = HResult.sOk ∧ ¬ AnswersTruly shortPathLoader
      [ComServer.registerApo passthrough] out.1 out.2 := by
  have hcalls : ∀ i < [ComServer.registerApo passthrough].length,
      WriteOutcomes.ChecksPass ((fun _ =>
        { WriteOutcomes.allOk with setName := .failed accessDenied } :
          ℕ → WriteOutcomes) i) := fun _ _ => ⟨rfl, rfl, rfl, rfl⟩
  have hfinds : shortPathLoader.Finds ⟨[97], by decide⟩ := ⟨rfl, rfl⟩
  obtain ⟨buf, hbuf, -⟩ := hfinds.ownModulePath
  obtain ⟨s', hloop, -, hfailures⟩ := registerAll_of_checksPass buf
    { hive := Registry.empty, failures := [] } hcalls (by simp)
  have hout : dllRegisterServerDispatch shortPathLoader
      (fun _ => { WriteOutcomes.allOk with setName := .failed accessDenied })
      [ComServer.registerApo passthrough]
      { hive := Registry.empty, failures := [] } = (s', HResult.sOk) := by
    rw [dllRegisterServerDispatch, hbuf]
    exact hloop
  rw [hout]
  refine ⟨rfl, fun htrue => isErr_sOk (htrue.reported fun hnone => ?_)⟩
  have hname := (hfailures.mp hnone).2 0 Nat.zero_lt_one
  cases hname

/-! ## Removal after any registration -/

section Removal

variable {registry : List ApoVTable} {s : System}

/-- The hive after the class keys of the vtables are deleted in turn. -/
def deleteClasses (registry : List ApoVTable) (hive : Hive) : Hive :=
  registry.foldl (fun hive v => hive.deleteTree (clsidKey v.clsid)) hive

theorem dllUnregisterServerDispatch_ok :
    dllUnregisterServerDispatch (fun _ => .ok) registry s =
      ({ s with hive := deleteClasses registry s.hive }, HResult.sOk) := by
  induction registry generalizing s with
  | nil => rfl
  | cons v registry ih =>
      rw [dllUnregisterServerDispatch, clearRegistry_ok]
      exact ih

theorem confined_deleteClasses (hive : Hive) :
    Registry.Confined (ClassKeys registry) hive
      (deleteClasses registry hive) := by
  induction registry generalizing hive with
  | nil => exact Registry.Confined.refl _ _
  | cons v registry ih =>
      have hfirst : Registry.Confined (ClassKeys (v :: registry)) hive
          (hive.deleteTree (clsidKey v.clsid)) :=
        Registry.Confined.deleteTree ⟨v, List.mem_cons_self, rfl⟩
      refine hfirst.trans ((ih _).mono ?_)
      rintro top ⟨u, hu, rfl⟩
      exact ⟨u, List.mem_cons_of_mem v hu, rfl⟩

theorem hasKey_of_deleteClasses {hive : Hive} {p : HKey}
    (h : (deleteClasses registry hive).HasKey p) : hive.HasKey p := by
  induction registry generalizing hive with
  | nil => exact h
  | cons v registry ih => exact (ih h).of_deleteTree

theorem not_hasKey_deleteClasses {v : ApoVTable} (hv : v ∈ registry)
    (hive : Hive) {p : HKey} (hp : clsidKey v.clsid <+: p) :
    ¬ (deleteClasses registry hive).HasKey p := by
  induction registry generalizing hive with
  | nil => cases hv
  | cons u registry ih =>
      rcases List.mem_cons.mp hv with rfl | hv
      · intro h
        exact Registry.not_hasKey_deleteTree (clsidKey_ne_nil _) hp
          (hasKey_of_deleteClasses h)
      · exact ih hv _

/-- Deleting what is gone changes nothing. -/
theorem deleteClasses_of_absent {hive : Hive}
    (h : ∀ v ∈ registry, ¬ hive.HasKey (clsidKey v.clsid)) :
    deleteClasses registry hive = hive := by
  induction registry with
  | nil => rfl
  | cons v registry ih =>
      obtain ⟨hfirst, hrest⟩ := List.forall_mem_cons.mp h
      rw [deleteClasses, List.foldl_cons,
        Registry.deleteTree_of_not_hasKey hfirst]
      exact ih hrest

end Removal

/-- What removal owes the hive as it was before the registration. -/
structure Removed (registry : List ApoVTable) (before after : Hive) : Prop where
  absent : ∀ v ∈ registry, ∀ p, clsidKey v.clsid <+: p → ¬ after.HasKey p
  kept : ∀ p, before.HasKey p → (∀ v ∈ registry, ¬ clsidKey v.clsid <+: p) →
    after.key p = before.key p
  /-- Other classes have the keys they had, and no new ones. -/
  others : ∀ c, (∀ v ∈ registry, c ≠ v.clsid) →
    ∀ p, clsidKey c <+: p → after.key p = before.key p

theorem confined_dllRegisterServerDispatch (loader : Loader)
    (calls : ℕ → WriteOutcomes) (registry : List ApoVTable) (s : System) :
    Registry.Confined (ClassKeys registry) s.hive
      (dllRegisterServerDispatch loader calls registry s).1.hive := by
  rw [dllRegisterServerDispatch]
  split
  · exact Registry.Confined.refl _ _
  · exact confined_registerAll _ s

/-- For every registry, every hive and every outcome of the registration,
removal succeeds, removes the registered classes and nothing else, and done
again does nothing. -/
theorem removed_after_registration (loader : Loader)
    (calls : ℕ → WriteOutcomes) (registry : List ApoVTable) (s : System) :
    let s₁ := (dllRegisterServerDispatch loader calls registry s).1
    let out := dllUnregisterServerDispatch (fun _ => .ok) registry s₁
    out.2 = HResult.sOk ∧ Removed registry s.hive out.1.hive ∧
      dllUnregisterServerDispatch (fun _ => .ok) registry out.1 =
        (out.1, HResult.sOk) := by
  intro s₁ out
  have hout : out = ({ s₁ with hive := deleteClasses registry s₁.hive },
      HResult.sOk) := dllUnregisterServerDispatch_ok
  have hconfined : Registry.Confined (ClassKeys registry) s.hive
      (deleteClasses registry s₁.hive) :=
    (confined_dllRegisterServerDispatch loader calls registry s).trans
      (confined_deleteClasses s₁.hive)
  have habsent : ∀ v ∈ registry, ∀ p, clsidKey v.clsid <+: p →
      ¬ (deleteClasses registry s₁.hive).HasKey p :=
    fun v hv p hp => not_hasKey_deleteClasses hv _ hp
  rw [hout]
  refine ⟨rfl, ⟨habsent, ?_, ?_⟩, ?_⟩
  · intro p hkey hp
    refine hconfined.kept p ?_ hkey
    rintro top ⟨v, hv, rfl⟩
    exact hp v hv
  · intro c hc p hp
    refine hconfined.aside p ?_
    rintro top ⟨v, hv, rfl⟩
    exact aside_of_ne (hc v hv) hp
  · rw [dllUnregisterServerDispatch_ok]
    simp only [deleteClasses_of_absent
      fun v hv => habsent v hv _ List.prefix_rfl]

end TympanApo.Register
