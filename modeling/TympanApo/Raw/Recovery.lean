import TympanApo.Raw.Registration
import TympanApo.Support.RegistryAgree

/-!
# Registration after failed attempts

The entry points of both kinds of module may stop after any of their calls.
Whatever earlier attempts left in the hive, one registration whose calls
succeed leads to the hive it leads to without them.
-/

namespace TympanApo.Register

open TympanApo.ComServer (ApoVTable Kind)
open TympanApo.Support
open TympanApo.Win32

/-! ## The entry points of both kinds of module -/

/-- The loop of `aec_dll_register_server_dispatch`. -/
def aecRegisterAll (calls : ℕ → WriteOutcomes) (dllPath : List UInt16) :
    List ApoVTable → System → System × HResult
  | [], s => (s, HResult.sOk)
  | vtable :: registry, s =>
      match writeRegistryWith (calls 0) vtable.clsid vtable.name dllPath s with
      | (s, .error e) => (s, e.code)
      | (s, .ok ()) => aecRegisterAll (fun i => calls (i + 1)) dllPath registry s

/-- `aec_dll_register_server_dispatch`. -/
def aecDllRegisterServerDispatch (loader : Loader) (calls : ℕ → WriteOutcomes)
    (registry : List ApoVTable) (s : System) : System × HResult :=
  match ownModulePath loader with
  | .error e => (s, e.code)
  | .ok dllPath => aecRegisterAll calls dllPath registry s

/-- `aec_dll_unregister_server_dispatch`. -/
def aecDllUnregisterServerDispatch (deletes : ℕ → Outcome) :
    List ApoVTable → System → System × HResult
  | [], s => (s, HResult.sOk)
  | vtable :: registry, s =>
      match clearRegistry (deletes 0) vtable.clsid s with
      | (s, .error e) => (s, e.code)
      | (s, .ok ()) =>
          aecDllUnregisterServerDispatch (fun i => deletes (i + 1)) registry s

/-- `DllRegisterServer`, as the macro of the kind emits it. -/
def dllRegisterServer : Kind → Loader → (ℕ → WriteOutcomes) →
    List ApoVTable → System → System × HResult
  | .siso => dllRegisterServerDispatch
  | .aec => aecDllRegisterServerDispatch

/-- `DllUnregisterServer`, as the macro of the kind emits it. -/
def dllUnregisterServer : Kind → (ℕ → Outcome) → List ApoVTable → System →
    System × HResult
  | .siso => dllUnregisterServerDispatch
  | .aec => aecDllUnregisterServerDispatch

theorem aecRegisterAll_eq (calls : ℕ → WriteOutcomes) (dllPath : List UInt16)
    (registry : List ApoVTable) (s : System) :
    aecRegisterAll calls dllPath registry s =
      registerAll calls dllPath registry s := by
  induction registry generalizing calls s with
  | nil => rfl
  | cons v registry ih =>
      rw [aecRegisterAll, registerAll, writeRegistry]
      rcases writeRegistryWith (calls 0) v.clsid v.name dllPath s with
        ⟨s', e | ⟨⟩⟩
      · rfl
      · exact ih _ s'

theorem aecDllUnregisterServerDispatch_eq (deletes : ℕ → Outcome)
    (registry : List ApoVTable) (s : System) :
    aecDllUnregisterServerDispatch deletes registry s =
      dllUnregisterServerDispatch deletes registry s := by
  induction registry generalizing deletes s with
  | nil => rfl
  | cons v registry ih =>
      rw [aecDllUnregisterServerDispatch, dllUnregisterServerDispatch]
      rcases clearRegistry (deletes 0) v.clsid s with ⟨s', e | ⟨⟩⟩
      · rfl
      · exact ih _ s'

/-- The two kinds register alike. -/
theorem dllRegisterServer_eq (kind : Kind) :
    dllRegisterServer kind = dllRegisterServerDispatch := by
  cases kind with
  | siso => rfl
  | aec =>
      funext loader calls registry s
      rw [dllRegisterServer, aecDllRegisterServerDispatch,
        dllRegisterServerDispatch]
      cases ownModulePath loader with
      | error e => rfl
      | ok dllPath => exact aecRegisterAll_eq calls dllPath registry s

theorem dllUnregisterServer_eq (kind : Kind) :
    dllUnregisterServer kind = dllUnregisterServerDispatch := by
  cases kind with
  | siso => rfl
  | aec =>
      funext deletes registry s
      exact aecDllUnregisterServerDispatch_eq deletes registry s

/-! ## What registration writes -/

/-- The values that registration sets for a class. -/
def entries (clsid : Clsid) (name : String) (wide : List UInt16) :
    List (Registry.Entry Name Name RegData) :=
  [{ path := clsidKey clsid, name := [], data := regSz (encodeWide name) },
    { path := inprocKey clsid, name := [], data := regSz wide },
    { path := inprocKey clsid, name := foldName "ThreadingModel"
      data := regSz (encodeWide "Both") }]

/-- A registration that succeeds writes its entries. -/
theorem writeRegistryWith_allOk (clsid : Clsid) (name : String)
    (wide : List UInt16) (s : System) :
    writeRegistryWith .allOk clsid name wide s =
      ({ s with hive := Registry.writeAll (entries clsid name wide) s.hive },
        .ok ()) := by
  have hopen : ∀ r : Hive, ∀ n data,
      ((r.createKey (inprocKey clsid)).setValue (inprocKey clsid) n
        data).createKey (inprocKey clsid) =
      (r.createKey (inprocKey clsid)).setValue (inprocKey clsid) n data :=
    fun r n data => Registry.createKey_eq_self_iff.mpr
      ((r.hasKey_createKey_self _).setValue _ _ _)
  simp only [Registry.writeAll, entries, List.foldl_cons, List.foldl_nil,
    Registry.Entry.write, hopen]
  rfl

theorem registerAll_allOk (wide : List UInt16) (registry : List ApoVTable)
    (s : System) :
    registerAll (fun _ => .allOk) wide registry s =
      ({ s with
          hive := Registry.writeAll
            (registry.flatMap fun v => entries v.clsid v.name wide) s.hive },
        HResult.sOk) := by
  induction registry generalizing s with
  | nil => rfl
  | cons v registry ih =>
      rw [registerAll, writeRegistry, writeRegistryWith_allOk,
        List.flatMap_cons, Registry.writeAll_append]
      exact ih _

/-! ## What an attempt may do -/

/-- `R` holds along every registry call on a class of `registry`. -/
structure Covers (R : Hive → Hive → Prop) (registry : List ApoVTable) :
    Prop where
  refl : ∀ hive, R hive hive
  trans : ∀ {hive hive₁ hive₂}, R hive hive₁ → R hive₁ hive₂ → R hive hive₂
  createKey : ∀ hive, ∀ v ∈ registry, ∀ path, path <+: inprocKey v.clsid →
    R hive (hive.createKey path)
  setValue : ∀ hive, ∀ v ∈ registry, ∀ name wide,
    ∀ e ∈ entries v.clsid name wide, R hive (hive.setValue e.path e.name e.data)

/-- `R` holds also along the deletion of a class of `registry`. -/
structure CoversRemoval (R : Hive → Hive → Prop) (registry : List ApoVTable) :
    Prop extends Covers R registry where
  deleteTree : ∀ hive, ∀ v ∈ registry, R hive (hive.deleteTree (clsidKey v.clsid))

section Attempts

variable {R : Hive → Hive → Prop} {registry : List ApoVTable} {v : ApoVTable}

/-- The classes of `other` are among those of `registry`. -/
def Within (other registry : List ApoVTable) : Prop :=
  ∀ u ∈ other, ∃ v ∈ registry, v.clsid = u.clsid

theorem Covers.of_within {other : List ApoVTable} (h : Covers R registry)
    (hwithin : Within other registry) : Covers R other where
  refl := h.refl
  trans := h.trans
  createKey hive u hu := by
    obtain ⟨v, hv, hclsid⟩ := hwithin u hu
    rw [← hclsid]
    exact h.createKey hive v hv
  setValue hive u hu := by
    obtain ⟨v, hv, hclsid⟩ := hwithin u hu
    rw [← hclsid]
    exact h.setValue hive v hv

theorem CoversRemoval.of_within {other : List ApoVTable}
    (h : CoversRemoval R registry) (hwithin : Within other registry) :
    CoversRemoval R other where
  toCovers := h.toCovers.of_within hwithin
  deleteTree hive u hu := by
    obtain ⟨v, hv, hclsid⟩ := hwithin u hu
    rw [← hclsid]
    exact h.deleteTree hive v hv

theorem within_tail (v : ApoVTable) (registry : List ApoVTable) :
    Within registry (v :: registry) :=
  fun u hu => ⟨u, List.mem_cons_of_mem v hu, rfl⟩

theorem Covers.createSubkey (h : Covers R registry) (hv : v ∈ registry)
    {path : String} (hpath : keyPath path <+: inprocKey v.clsid)
    (outcome : CreateOutcome) (s : System) :
    R s.hive (Win32.createSubkey outcome path s).1.hive := by
  cases outcome with
  | ok => exact h.createKey s.hive v hv _ hpath
  | failed e made =>
      exact h.createKey s.hive v hv _ ((List.take_prefix made _).trans hpath)

theorem Covers.regSetValueExW (h : Covers R registry) (hv : v ∈ registry)
    {name : String} {wide : List UInt16}
    {e : Registry.Entry Name Name RegData}
    (he : e ∈ entries v.clsid name wide) (outcome : Outcome) (s : System) :
    R s.hive
      (Win32.regSetValueExW outcome e.path e.name e.data s).1.hive := by
  cases outcome with
  | ok => exact h.setValue s.hive v hv name wide e he
  | failed failure => exact h.refl s.hive

/-- Whatever fails, registering a class is a sequence of the calls covered. -/
theorem Covers.writeRegistryWith (h : Covers R registry) (hv : v ∈ registry)
    (calls : WriteOutcomes) (name : String) (wide : List UInt16) (s : System) :
    R s.hive (Register.writeRegistryWith calls v.clsid name wide s).1.hive := by
  have hset := fun e (he : e ∈ entries v.clsid name wide) =>
    h.regSetValueExW hv he
  have hopen := h.createSubkey hv (clsidKey_prefix_inprocKey v.clsid)
    calls.createClsid s
  cases hcreate : calls.createClsid with
  | failed e made =>
      rw [hcreate] at hopen
      simpa only [Register.writeRegistryWith, hcreate, createSubkey_failed]
        using hopen
  | ok =>
      rw [hcreate] at hopen
      simp only [Register.writeRegistryWith, hcreate, createSubkey_ok]
      have hname := h.trans hopen
        (hset _ List.mem_cons_self calls.setName _)
      have hopen' := h.trans hname
        (h.createSubkey hv List.prefix_rfl calls.createInproc _)
      cases hcreate' : calls.createInproc with
      | failed e made =>
          rw [hcreate'] at hopen'
          exact hopen'
      | ok =>
          rw [hcreate'] at hopen'
          have hpath := h.trans hopen' (hset _
            (List.mem_cons_of_mem _ List.mem_cons_self) calls.setPath _)
          exact h.trans hpath (hset _ (List.mem_cons_of_mem _
            (List.mem_cons_of_mem _ List.mem_cons_self)) calls.setThreading _)

theorem Covers.registerAll (h : Covers R registry) (calls : ℕ → WriteOutcomes)
    (wide : List UInt16) (s : System) :
    R s.hive (Register.registerAll calls wide registry s).1.hive := by
  induction registry generalizing calls s with
  | nil => exact h.refl s.hive
  | cons v registry ih =>
      have hfirst := h.writeRegistryWith List.mem_cons_self (calls 0) v.name
        wide s
      rw [Register.registerAll, writeRegistry]
      split
      next s' e heq =>
        rw [heq] at hfirst
        exact hfirst
      next s' heq =>
        rw [heq] at hfirst
        exact h.trans hfirst (ih (h.of_within (within_tail v registry)) _ s')

theorem CoversRemoval.dllUnregisterServerDispatch
    (h : CoversRemoval R registry) (deletes : ℕ → Outcome) (s : System) :
    R s.hive
      (Register.dllUnregisterServerDispatch deletes registry s).1.hive := by
  induction registry generalizing deletes s with
  | nil => exact h.refl s.hive
  | cons v registry ih =>
      have hrest := ih (h.of_within (within_tail v registry))
        (fun i => deletes (i + 1))
        { s with hive := s.hive.deleteTree (clsidKey v.clsid) }
      rw [Register.dllUnregisterServerDispatch]
      cases hdelete : deletes 0 with
      | ok =>
          rw [clearRegistry_ok]
          exact h.trans (h.deleteTree s.hive v List.mem_cons_self) hrest
      | failed e => exact h.refl s.hive

end Attempts

/-! ## Attempts -/

/-- A call of one of the two entry points, with any outcomes. -/
inductive Attempt
  | register (kind : Kind) (loader : Loader) (calls : ℕ → WriteOutcomes)
      (registry : List ApoVTable)
  | unregister (kind : Kind) (deletes : ℕ → Outcome)
      (registry : List ApoVTable)

namespace Attempt

def registry : Attempt → List ApoVTable
  | .register _ _ _ registry => registry
  | .unregister _ _ registry => registry

def perform : Attempt → System → System × HResult
  | .register kind loader calls registry =>
      dllRegisterServer kind loader calls registry
  | .unregister kind deletes registry =>
      dllUnregisterServer kind deletes registry

/-- The attempt is a registration. -/
def Registers : Attempt → Prop
  | .register .. => True
  | .unregister .. => False

variable {R : Hive → Hive → Prop} {registry : List ApoVTable}

theorem covered_of_registers {a : Attempt} (h : Covers R registry)
    (hwithin : Within a.registry registry) (hregisters : a.Registers)
    (s : System) : R s.hive (a.perform s).1.hive := by
  cases a with
  | unregister => exact hregisters.elim
  | register kind loader calls other =>
      rw [perform, dllRegisterServer_eq, dllRegisterServerDispatch]
      split
      · exact h.refl s.hive
      · exact (h.of_within hwithin).registerAll calls _ s

theorem covered {a : Attempt} (h : CoversRemoval R registry)
    (hwithin : Within a.registry registry) (s : System) :
    R s.hive (a.perform s).1.hive := by
  cases a with
  | register =>
      exact covered_of_registers h.toCovers hwithin trivial s
  | unregister kind deletes other =>
      rw [perform, dllUnregisterServer_eq]
      exact (h.of_within hwithin).dllUnregisterServerDispatch deletes s

end Attempt

/-- Attempts in turn. -/
def performAll (attempts : List Attempt) (s : System) : System :=
  attempts.foldl (fun s a => (a.perform s).1) s

/-- What holds along every attempt holds along all of them. -/
theorem rel_performAll {R : Hive → Hive → Prop} {attempts : List Attempt}
    (hrefl : ∀ hive, R hive hive)
    (htrans : ∀ {hive hive₁ hive₂}, R hive hive₁ → R hive₁ hive₂ →
      R hive hive₂)
    (h : ∀ a ∈ attempts, ∀ s : System, R s.hive (a.perform s).1.hive)
    (s : System) : R s.hive (performAll attempts s).hive := by
  induction attempts generalizing s with
  | nil => exact hrefl s.hive
  | cons a attempts ih =>
      obtain ⟨hfirst, hrest⟩ := List.forall_mem_cons.mp h
      exact htrans (hfirst s) (ih hrest _)

/-! ## Recovery -/

section Recovery

variable (registry : List ApoVTable) (wide : List UInt16)

/-- The entries of all classes of a module. -/
def plan : List (Registry.Entry Name Name RegData) :=
  registry.flatMap fun v => entries v.clsid v.name wide

/-- A key at, above or below a class key. -/
def Around (p : HKey) : Prop :=
  ∃ v ∈ registry, p <+: clsidKey v.clsid ∨ clsidKey v.clsid <+: p

/-- A key at or below a class key. -/
def Below (p : HKey) : Prop :=
  ∃ v ∈ registry, clsidKey v.clsid <+: p

variable {registry}

theorem makes_plan {v : ApoVTable} (hv : v ∈ registry) {p : HKey}
    (hp : p <+: inprocKey v.clsid) : Registry.Makes (plan registry wide) p := by
  have hmem : (⟨inprocKey v.clsid, [], regSz wide⟩ :
      Registry.Entry Name Name RegData) ∈ plan registry wide :=
    List.mem_flatMap.mpr ⟨v, hv, List.mem_cons_of_mem _ List.mem_cons_self⟩
  exact ⟨_, hmem, hp⟩

/-- The places of the entries depend on the class alone. -/
theorem sets_plan {v : ApoVTable} (hv : v ∈ registry) {name : String}
    {other : List UInt16} {e : Registry.Entry Name Name RegData}
    (he : e ∈ entries v.clsid name other) :
    Registry.Sets (plan registry wide) e.path e.name := by
  have hsame : ∃ e' ∈ entries v.clsid v.name wide,
      (e.path, e.name) = (e'.path, e'.name) := by
    simp only [entries, List.mem_cons, List.not_mem_nil, or_false] at he
    rcases he with rfl | rfl | rfl <;> simp [entries]
  obtain ⟨e', he', hplace⟩ := hsame
  exact ⟨e', List.mem_flatMap.mpr ⟨v, hv, he'⟩, hplace⟩

theorem entries_below {clsid : Clsid} {name : String} {wide : List UInt16}
    {e : Registry.Entry Name Name RegData} (he : e ∈ entries clsid name wide) :
    clsidKey clsid <+: e.path := by
  have hinproc := clsidKey_prefix_inprocKey clsid
  simp only [entries, List.mem_cons, List.not_mem_nil, or_false] at he
  rcases he with rfl | rfl | rfl
  · exact List.prefix_rfl
  · exact hinproc
  · exact hinproc

/-- Registrations touch nothing but what a registration writes. -/
theorem covers_plan :
    Covers (Registry.Agree (Registry.Makes (plan registry wide))
      (Registry.Sets (plan registry wide))) registry where
  refl := Registry.Agree.refl _ _
  trans := Registry.Agree.trans
  createKey hive _ hv _ hpath :=
    Registry.Agree.createKey hive fun _ hp => makes_plan wide hv (hp.trans hpath)
  setValue hive _ hv _ _ _ he :=
    Registry.Agree.update hive _ (sets_plan wide hv he)

/-- Attempts touch nothing but what lies around the class keys. -/
theorem coversRemoval_around :
    CoversRemoval (Registry.Agree (Around registry)
      fun p (_ : Name) => Below registry p) registry where
  refl := Registry.Agree.refl _ _
  trans := Registry.Agree.trans
  createKey hive v hv _ hpath :=
    Registry.Agree.createKey hive fun _ hp => ⟨v, hv,
      List.prefix_or_prefix_of_prefix (hp.trans hpath)
        (clsidKey_prefix_inprocKey v.clsid)⟩
  setValue hive v hv _ _ _ he :=
    Registry.Agree.update hive _ ⟨v, hv, entries_below he⟩
  deleteTree hive v hv :=
    Registry.Agree.deleteTree hive (fun _ hp => ⟨v, hv, Or.inr hp⟩)
      fun _ _ hp => ⟨v, hv, hp⟩

/-- Deleting the classes in both hives leaves only the keys above them to
differ. -/
theorem agree_deleteClasses {keys : HKey → Prop}
    {values : HKey → Name → Prop} {hive hive' : Hive}
    (h : Registry.Agree keys values hive hive') (registry : List ApoVTable) :
    Registry.Agree (fun p => keys p ∧ ¬ Below registry p)
      (fun p n => values p n ∧ ¬ Below registry p)
      (deleteClasses registry hive) (deleteClasses registry hive') := by
  induction registry generalizing keys values hive hive' with
  | nil => exact h.mono (by simp [Below]) (by simp [Below])
  | cons v registry ih =>
      have hfirst := h.congr_deleteTree (clsidKey_ne_nil v.clsid)
      refine (ih hfirst).mono ?_ ?_
      · rintro p ⟨⟨hkeys, hv⟩, hrest⟩
        refine ⟨hkeys, ?_⟩
        rintro ⟨u, hu, hle⟩
        rcases List.mem_cons.mp hu with rfl | hu
        · exact hv hle
        · exact hrest ⟨u, hu, hle⟩
      · rintro p n ⟨⟨hvalues, hv⟩, hrest⟩
        refine ⟨hvalues, ?_⟩
        rintro ⟨u, hu, hle⟩
        rcases List.mem_cons.mp hu with rfl | hu
        · exact hv hle
        · exact hrest ⟨u, hu, hle⟩

theorem writeAll_deleteClasses_eq {hive hive' : Hive}
    (h : Registry.Agree (Around registry) (fun p _ => Below registry p) hive
      hive') :
    Registry.writeAll (plan registry wide) (deleteClasses registry hive) =
      Registry.writeAll (plan registry wide)
        (deleteClasses registry hive') := by
  refine (agree_deleteClasses h registry).writeAll_eq ?_ ?_
  · rintro p ⟨⟨v, hv, habove | hbelow⟩, hnot⟩
    · exact makes_plan wide hv
        (habove.trans (clsidKey_prefix_inprocKey v.clsid))
    · exact absurd ⟨v, hv, hbelow⟩ hnot
  · rintro p n ⟨hbelow, hnot⟩
    exact absurd hbelow hnot

end Recovery

/-- A registration whose calls succeed. -/
def install (kind : Kind) (loader : Loader) (registry : List ApoVTable)
    (s : System) : System × HResult :=
  dllRegisterServer kind loader (fun _ => .allOk) registry s

/-- A removal whose calls succeed. -/
def uninstall (kind : Kind) (registry : List ApoVTable) (s : System) :
    System × HResult :=
  dllUnregisterServer kind (fun _ => .ok) registry s

theorem install_of_finds {loader : Loader} {path : ModulePath}
    (h : loader.Finds path) (kind : Kind) (registry : List ApoVTable) :
    ∃ wide, ∀ s, install kind loader registry s =
      ({ s with hive := Registry.writeAll (plan registry wide) s.hive },
        HResult.sOk) := by
  obtain ⟨wide, hpath, -⟩ := h.ownModulePath
  refine ⟨wide, fun s => ?_⟩
  rw [install, dllRegisterServer_eq, dllRegisterServerDispatch, hpath]
  exact registerAll_allOk wide registry s

theorem uninstall_eq (kind : Kind) (registry : List ApoVTable) (s : System) :
    uninstall kind registry s =
      ({ s with hive := deleteClasses registry s.hive }, HResult.sOk) := by
  rw [uninstall, dllUnregisterServer_eq, dllUnregisterServerDispatch_ok]

/-- After any attempts to register and remove the classes of a module, by
modules of either kind and with any failures, removing and registering them
leads to the hive it leads to without the attempts; after registrations alone,
registering is enough. -/
theorem recovers_after_attempts {loader : Loader} {path : ModulePath}
    (hfinds : loader.Finds path) (kind : Kind) {registry : List ApoVTable}
    {attempts : List Attempt}
    (hwithin : ∀ a ∈ attempts, Within a.registry registry) (s : System) :
    let again := fun s : System => (install kind loader registry s).1.hive
    let afresh := fun s : System => again (uninstall kind registry s).1
    (install kind loader registry (performAll attempts s)).2 = HResult.sOk ∧
      afresh (performAll attempts s) = afresh s ∧
      ((∀ a ∈ attempts, a.Registers) →
        again (performAll attempts s) = again s) := by
  intro again afresh
  obtain ⟨wide, hinstall⟩ := install_of_finds hfinds kind registry
  refine ⟨?_, ?_, fun hregisters => ?_⟩
  · rw [hinstall]
  · simp only [afresh, again, hinstall, uninstall_eq]
    have hcovers := @coversRemoval_around registry
    have hagree := rel_performAll hcovers.refl hcovers.trans
      (fun a ha s => Attempt.covered hcovers (hwithin a ha) s) s
    exact (writeAll_deleteClasses_eq wide hagree).symm
  · simp only [again, hinstall]
    have hcovers := @covers_plan registry wide
    have hagree := rel_performAll hcovers.refl hcovers.trans
      (fun a ha s => Attempt.covered_of_registers hcovers (hwithin a ha)
        (hregisters a ha) s) s
    exact (hagree.writeAll_eq (fun _ hp => hp) fun _ _ hn => hn).symm

/-- A registration that stops half way, a removal that is refused, and then
the registration and the removal that succeed. -/
theorem recovers_passthrough :
    let registry := [ComServer.registerApo passthrough]
    let s : System := { hive := Registry.empty, failures := [] }
    let attempts : List Attempt :=
      [.register .siso shortPathLoader
        (fun _ => { WriteOutcomes.allOk with setPath := .failed accessDenied })
        registry, .unregister .aec (fun _ => .failed accessDenied) registry]
    let again := fun s : System =>
      (install .siso shortPathLoader registry s).1.hive
    again (uninstall .siso registry (performAll attempts s)).1 =
      again (uninstall .siso registry s).1 := by
  have hfinds : shortPathLoader.Finds ⟨[97], by decide⟩ := ⟨rfl, rfl⟩
  refine (recovers_after_attempts hfinds .siso ?_ _).2.1
  intro a ha
  simp only [List.mem_cons, List.not_mem_nil, or_false] at ha
  rcases ha with rfl | rfl <;> exact fun u hu => ⟨u, hu, rfl⟩

end TympanApo.Register
