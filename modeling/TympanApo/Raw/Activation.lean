import TympanApo.Raw.Carriers
import TympanApo.Raw.Recovery
import TympanApo.Raw.RegPayload

/-!
# Registered and served

A DLL whose registration succeeded serves the classes that the registration
entered in the hive and no others, and every object it ever creates is entered
under the class and the name that the object itself reports to the engine.
-/

namespace TympanApo.ComServer

open TympanApo.Register
open TympanApo.Support
open TympanApo.Win32

variable {s s' : Server} {com : ComLibrary} {registry : Kind → List ApoVTable}
    {a : Action} {es : List Event}

/-! ## Objects and the vtables they come from -/

/-- The vtable is one that the macros emit. -/
def ApoVTable.Generated (v : ApoVTable) : Prop :=
  ∃ (σ : Type) (T : ProcessingObject σ), v = registerApo T

theorem ApoVTable.Generated.emitted {v : ApoVTable} (h : v.Generated) :
    v.Emitted := by
  obtain ⟨σ, T, rfl⟩ := h
  exact ⟨σ, T, rfl⟩

/-- The object behind a carrier is of a class in the registry of the carrier's
kind. -/
def Listed (registry : Kind → List ApoVTable) (s : Server)
    (c : ApoInstanceCom) : Prop :=
  ∃ any, s.instances[c.arc]? = some any ∧
    registerApo any.T ∈ registry c.kind

/-- What a run keeps about the objects of all carriers there ever were. -/
structure Accounted (registry : Kind → List ApoVTable) (s : Server) :
    Prop where
  owned : Owned registry s
  listed : ∀ c ∈ s.carriers.values, Listed registry s c

/-- The object stays where it is when others are added. -/
theorem Listed.append {c : ApoInstanceCom} (h : Listed registry s c)
    {later : List AnyApoInstance}
    (hinstances : s'.instances = s.instances ++ later) :
    Listed registry s' c := by
  obtain ⟨any, hany, hmem⟩ := h
  have hplaced : c.arc < s.instances.length :=
    (List.getElem?_eq_some_iff.mp hany).1
  refine ⟨any, ?_, hmem⟩
  rw [hinstances, List.getElem?_append_left hplaced]
  exact hany

theorem Listed.of_eq {c : ApoInstanceCom} (h : Listed registry s c)
    (hinstances : s'.instances = s.instances) : Listed registry s' c :=
  h.append (hinstances.trans (List.append_nil _).symm)

/-- A new carrier is around an object of its factory's class. -/
theorem listed_createCarrier {self : ApoClassFactory}
    (hgenerated : self.vtable.Generated)
    (hmem : self.vtable ∈ registry self.kind)
    (h : ∀ c ∈ s.carriers.values, Listed registry s c) :
    ∀ c ∈ (s.createCarrier self).carriers.values,
      Listed registry (s.createCarrier self) c := by
  obtain ⟨σ, T, hvtable⟩ := hgenerated
  have hcreated : s.createCarrier self =
      { outstanding := s.outstanding + 1
        instances := s.instances ++ [{ T, inst := ApoInstance.new T }]
        factories := s.factories
        carriers := s.carriers.alloc
          { kind := self.kind, arc := s.instances.length } } := by
    simp only [Server.createCarrier, hvtable, registerApo, tympanApoCreate,
      Server.newCarrier, Server.outstandingInc]
  rw [hcreated]
  intro c hc
  rw [Pool.values_alloc] at hc
  rcases List.mem_append.mp hc with hold | hnew
  · exact (h c hold).append rfl
  · obtain rfl := List.mem_singleton.mp hnew
    refine ⟨_, List.getElem?_concat_length, ?_⟩
    rw [← hvtable]
    exact hmem

theorem Accounted.create (h : Accounted registry s)
    (hregistry : ∀ kind, ∀ v ∈ registry kind, v.Generated) {place : ℕ}
    {self : ApoClassFactory} (hlive : s.factories.get? place = some self)
    {riid : Option Guid} {ppvObject : Option Slot}
    {called : Called (Except ComError Unit)}
    (houtcome : CreateOutcome com s self riid ppvObject called) :
    ∀ c ∈ called.server.carriers.values, Listed registry called.server c := by
  have hself : self ∈ s.factories.values :=
    List.mem_of_getElem? (Pool.values_of_get? hlive)
  have hmem := (h.owned.bound self hself).mem
  have hcreated := listed_createCarrier (hregistry self.kind _ hmem) hmem
    h.listed
  cases houtcome with
  | refused _ _ _ hserver _ =>
      rw [hserver]
      exact h.listed
  | queried _ _ _ hserver _ =>
      rw [hserver]
      exact hcreated
  | notQueried _ _ _ hserver _ =>
      rw [hserver]
      obtain ⟨hcarriers, hinstances, -⟩ :=
        (s.createCarrier self).releaseCarrier_frame s.carriers.length
      intro c hc
      rw [hcarriers] at hc
      exact (hcreated c hc).of_eq hinstances

/-- A method call leaves every object of the class it is of. -/
theorem Listed.invoke {c : ApoInstanceCom} (h : Listed registry s c)
    (carrier : ApoInstanceCom) (call : Lifecycle.Call) :
    Listed registry (s.invoke carrier call) c := by
  obtain ⟨any, hany, hmem⟩ := h
  by_cases harc : carrier.arc = c.arc
  · refine ⟨{ T := any.T
              inst := (Lifecycle.perform any.T any.inst call).inst }, ?_, hmem⟩
    rw [Server.invoke, harc, List.getElem?_modify_eq, hany]
    rfl
  · refine ⟨any, ?_, hmem⟩
    rw [Server.invoke, List.getElem?_modify_ne _ _ harc]
    exact hany

theorem Accounted.transition (h : Accounted registry s)
    (hregistry : ∀ kind, ∀ v ∈ registry kind, v.Generated)
    (htransition : Transition com registry s a s' es) :
    Accounted registry s' := by
  have hemitted : ∀ kind, ∀ v ∈ registry kind, v.Emitted :=
    fun kind v hv => (hregistry kind v hv).emitted
  refine ⟨h.owned.transition hemitted htransition, ?_⟩
  cases htransition with
  | classObject kind rclsid riid ppv called hcalled =>
      obtain ⟨-, hcarriers, hinstances, -⟩ :=
        s.dllGetClassObjectDispatch_frame com kind rclsid riid ppv (registry kind)
      rw [← hcalled] at hcarriers hinstances
      rw [hcarriers]
      exact fun c hc => (h.listed c hc).of_eq hinstances
  | create factory self punkOuter riid ppvObject called hlive houtcome =>
      exact h.create hregistry hlive houtcome
  | addRefCarrier place carrier hlive =>
      intro c hc
      rw [Server.addRefCarrier, Pool.values_addRef] at hc
      exact (h.listed c hc).of_eq rfl
  | releaseCarrier place carrier hlive =>
      obtain ⟨hcarriers, hinstances, -⟩ := s.releaseCarrier_frame place
      intro c hc
      rw [hcarriers] at hc
      exact (h.listed c hc).of_eq hinstances
  | invoke place carrier call hlive =>
      exact fun c hc => (h.listed c hc).invoke carrier call
  | lockServer => exact fun c hc => (h.listed c hc).of_eq rfl
  | addRefFactory => exact fun c hc => (h.listed c hc).of_eq rfl
  | releaseFactory => exact fun c hc => (h.listed c hc).of_eq rfl
  | canUnloadNow => exact h.listed

theorem listed_of_reaches {H : List Event}
    (hregistry : ∀ kind, ∀ v ∈ registry kind, v.Generated)
    (h : (machine com registry).Reaches H s) : Accounted registry s := by
  refine h.invariant (I := fun _ s => Accounted registry s) ?_ ?_
  · have hemitted : ∀ kind, ∀ v ∈ registry kind, v.Emitted :=
      fun kind v hv => (hregistry kind v hv).emitted
    have hstart : (machine com registry).Reaches [] Server.loaded :=
      Machine.Run.start
    refine ⟨owned_of_reaches hemitted hstart, ?_⟩
    intro c hc
    cases hc
  · intro H es s s' a haccounted _ hstep
    exact haccounted.transition hregistry (step_transition hstep)

/-! ## What a successful registration leaves in the hive -/

section Registered

variable {kind : Kind} {loader : Loader} {calls : ℕ → WriteOutcomes}
    {vtables : List ApoVTable} {hive : Hive} {wide : List UInt16}

/-- `S_OK` without a failed call means that every value of every class was
written. -/
theorem wrote_of_registered (hpath : ownModulePath loader = .ok wide)
    (hdistinct : (vtables.map (·.clsid)).Nodup)
    (hok : (dllRegisterServer kind loader calls vtables
      { hive, failures := [] }).2 = HResult.sOk)
    (hclean : (dllRegisterServer kind loader calls vtables
      { hive, failures := [] }).1.failures = []) :
    ∀ v ∈ vtables, Wrote v.clsid v.name wide True
      (dllRegisterServer kind loader calls vtables
        { hive, failures := [] }).1.hive := by
  rw [dllRegisterServer_eq, dllRegisterServerDispatch, hpath] at hok hclean ⊢
  by_cases hchecks : ∀ i < vtables.length, (calls i).ChecksPass
  · obtain ⟨s', hloop, hwrote, hfailures⟩ := registerAll_of_checksPass wide
      { hive, failures := [] } hchecks hdistinct
    simp only [hloop] at hclean ⊢
    have hnamed := (hfailures.mp hclean).2
    exact fun v hv => (hwrote v hv).mono fun _ => hnamed
  · have hfails : ∃ i < vtables.length, ¬ (calls i).ChecksPass := by
      simpa using hchecks
    have herr := registerAll_of_not_checksPass wide { hive, failures := [] }
      hfails
    simp only [hok] at herr
    exact absurd herr isErr_sOk

theorem hasKey_of_value {h : Hive} {p : HKey} {n : Name} {data : RegData}
    (hvalue : h.value p n = some data) : h.HasKey p := by
  by_contra hnone
  rw [Registry.value_eq_none_of_not_hasKey hnone] at hvalue
  cases hvalue

/-- The classes in the hive are those there were and those registered. -/
theorem hasKey_iff_of_wrote
    (hwrote : ∀ v ∈ vtables, Wrote v.clsid v.name wide True
      (dllRegisterServer kind loader calls vtables
        { hive, failures := [] }).1.hive) (clsid : Clsid) :
    (dllRegisterServer kind loader calls vtables
      { hive, failures := [] }).1.hive.HasKey (inprocKey clsid) ↔
        hive.HasKey (inprocKey clsid) ∨ ∃ v ∈ vtables, v.clsid = clsid := by
  by_cases hmem : ∃ v ∈ vtables, v.clsid = clsid
  · obtain ⟨v, hv, rfl⟩ := hmem
    exact iff_of_true (hasKey_of_value (hwrote v hv).path)
      (Or.inr ⟨v, hv, rfl⟩)
  · have hconfined := confined_dllRegisterServerDispatch loader calls vtables
      { hive, failures := [] }
    have hsame : (dllRegisterServer kind loader calls vtables
        { hive, failures := [] }).1.hive.key (inprocKey clsid) =
          hive.key (inprocKey clsid) := by
      rw [dllRegisterServer_eq]
      refine hconfined.aside _ ?_
      rintro top ⟨v, hv, rfl⟩
      have hne : clsid ≠ v.clsid := fun heq => hmem ⟨v, hv, heq.symm⟩
      exact aside_of_ne hne (clsidKey_prefix_inprocKey clsid)
    rw [or_iff_left hmem, Registry.HasKey, hsame]
    rfl

end Registered

/-- With an interface that factories have, the dispatch serves the classes of
its vtables. -/
theorem served_iff {kind : Kind} {clsid riid : Guid}
    (hquery : (com.query .factory kind (some riid)).1.isOk = true)
    (s : Server) (slot : Slot) (vtables : List ApoVTable) :
    (s.dllGetClassObjectDispatch com kind (some clsid) (some riid) (some slot)
      vtables).answer.isOk = true ↔
        ∃ v ∈ vtables, v.clsid = Clsid.ofGuid clsid := by
  have hunknown : ¬ HResult.classEClassnotavailable.isOk = true := by decide
  rw [Server.dllGetClassObjectDispatch]
  cases hfind : vtables.find? (fun v => v.clsid == Clsid.ofGuid clsid) with
  | none =>
      refine iff_of_false hunknown ?_
      rintro ⟨v, hv, hclsid⟩
      have hother := List.find?_eq_none.mp hfind v hv
      exact hother (beq_iff_eq.mpr hclsid)
  | some v =>
      have hmem := (firstWith_of_find? hfind).mem
      obtain ⟨-, -, -, hclsid, -⟩ := firstWith_of_find? hfind
      exact iff_of_true hquery ⟨v, hmem, hclsid⟩

/-! ## Every run -/

/-- The object reports itself as the hive describes its class: the payload of
its registration properties names a class that is entered with the module, and
carries the name entered, cut to its field. -/
def ReportsAsEntered (hive : Hive) (wide : List UInt16)
    (any : AnyApoInstance) : Prop :=
  ∀ (interfaces : List Guid) (alloc : CoTaskMemAlloc) (b : Block),
    interfaces.length < 2 ^ 32 →
    RegProperties.buildRegistrationPropertiesWith alloc any interfaces =
      .ok b →
    hive.value (inprocKey (RegProperties.readClsid b)) [] =
        some (regSz wide) ∧
      ∃ name, hive.value (clsidKey (RegProperties.readClsid b)) [] =
          some (regSz (encodeWide name)) ∧
        RegProperties.readField b 20 =
          (RegProperties.encodeWideZ 256 name).toList

theorem reportsAsEntered_of_wrote {hive : Hive} {wide : List UInt16}
    {any : AnyApoInstance}
    (h : Wrote any.T.clsid any.T.name wide True hive) :
    ReportsAsEntered hive wide any := by
  intro interfaces alloc b hcount hbuilt
  have hpayload := (RegProperties.payload_of_built hcount hbuilt).2
  rw [hpayload.clsid]
  exact ⟨h.path, any.T.name, h.name trivial, hpayload.friendlyName⟩

/-- After a registration of distinct classes that answered `S_OK` without a
failed call, and in every state that any calls of any clients lead to: a class
is in the hive if and only if it was there before or is served, and every
object alive reports itself as the hive describes its class. -/
theorem served_as_registered {kind : Kind} {loader : Loader}
    {calls : ℕ → WriteOutcomes} {hive : Hive} {wide : List UInt16}
    (hregistry : ∀ kind, ∀ v ∈ registry kind, v.Generated)
    (hdistinct : ((registry kind).map (·.clsid)).Nodup)
    (hpath : ownModulePath loader = .ok wide)
    (hok : (dllRegisterServer kind loader calls (registry kind)
      { hive, failures := [] }).2 = HResult.sOk)
    (hclean : (dllRegisterServer kind loader calls (registry kind)
      { hive, failures := [] }).1.failures = [])
    {H : List Event} (hreach : (machine com registry).Reaches H s) :
    let after := (dllRegisterServer kind loader calls (registry kind)
      { hive, failures := [] }).1.hive
    (∀ (clsid riid : Guid) (slot : Slot),
        (com.query .factory kind (some riid)).1.isOk = true →
        (after.HasKey (inprocKey (Clsid.ofGuid clsid)) ↔
          hive.HasKey (inprocKey (Clsid.ofGuid clsid)) ∨
            (s.dllGetClassObjectDispatch com kind (some clsid) (some riid)
              (some slot) (registry kind)).answer.isOk = true)) ∧
      ∀ place carrier, s.carriers.get? place = some carrier →
        carrier.kind = kind →
        ∃ any, s.instances[carrier.arc]? = some any ∧
          ReportsAsEntered after wide any := by
  intro after
  have hwrote := wrote_of_registered hpath hdistinct hok hclean
  constructor
  · intro clsid riid slot hquery
    rw [served_iff hquery]
    exact hasKey_iff_of_wrote hwrote _
  · rintro place carrier hlive rfl
    have hcarrier : carrier ∈ s.carriers.values :=
      List.mem_of_getElem? (Pool.values_of_get? hlive)
    obtain ⟨any, hany, hmem⟩ :=
      (listed_of_reaches hregistry hreach).listed carrier hcarrier
    exact ⟨any, hany, reportsAsEntered_of_wrote (hwrote _ hmem)⟩

/-- The fixture, registered in an empty hive and created once. -/
theorem served_as_registered_passthrough :
    let after := (dllRegisterServer .siso shortPathLoader
      (fun _ => WriteOutcomes.allOk) (passthroughRegistry .siso)
      { hive := Registry.empty, failures := [] }).1.hive
    after.HasKey (inprocKey passthrough.clsid) ∧
      ∃ s any, (machine answeringCom passthroughRegistry).Reaches [] s ∧
        s.instances[0]? = some any ∧ ReportsAsEntered after [97, 0] any := by
  have hreach : (machine answeringCom passthroughRegistry).Reaches _ _ :=
    Machine.reaches_of_exec
      [.getClassObject .siso (some passthrough.clsid.toGuid)
          (some passthrough.clsid.toGuid) (some none),
        .createInstance 0 none (some passthrough.clsid.toGuid) (some none)]
      rfl
  have hgenerated : ∀ kind, ∀ v ∈ passthroughRegistry kind, v.Generated := by
    intro kind v hv
    obtain rfl := List.mem_singleton.mp hv
    exact ⟨Unit, passthrough, rfl⟩
  have hpath : ownModulePath shortPathLoader = .ok [97, 0] := rfl
  have hok : (dllRegisterServer .siso shortPathLoader
      (fun _ => WriteOutcomes.allOk) (passthroughRegistry .siso)
      { hive := Registry.empty, failures := [] }).2 = HResult.sOk := rfl
  have hclean : (dllRegisterServer .siso shortPathLoader
      (fun _ => WriteOutcomes.allOk) (passthroughRegistry .siso)
      { hive := Registry.empty, failures := [] }).1.failures = [] := rfl
  obtain ⟨hserved, hobjects⟩ := served_as_registered hgenerated
    (List.nodup_singleton _) hpath hok hclean hreach
  refine ⟨?_, ?_⟩
  · have hclass := hserved passthrough.clsid.toGuid passthrough.clsid.toGuid
      none (by decide)
    rw [Clsid.ofGuid_toGuid] at hclass
    exact hclass.mpr (Or.inr (by decide))
  · obtain ⟨any, hany, hreports⟩ := hobjects 0 _ rfl rfl
    exact ⟨_, any, hreach, hany, hreports⟩

end TympanApo.ComServer
