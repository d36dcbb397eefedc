import Mathlib.Data.List.Nodup
import TympanApo.Raw.Exports

/-!
# Carriers and their instances

What every run of the DLL keeps about its carriers: the counter counts them,
each of them owns an instance of its own, and a call that fails leaves no trace
but a null pointer in its slot.
-/

namespace TympanApo.ComServer

open TympanApo.Realtime
open TympanApo.Support

variable {s s' : Server} {com : ComLibrary} {registry : Kind → List ApoVTable}
    {a : Action} {es : List Event}

/-! ## Class-object requests -/

/-- `v` is the first vtable with a CLSID. -/
def FirstWith (vtables : List ApoVTable) (clsid : Clsid) (v : ApoVTable) :
    Prop :=
  ∃ before after, vtables = before ++ v :: after ∧ v.clsid = clsid ∧
    ∀ u ∈ before, u.clsid ≠ clsid

theorem firstWith_of_find? {vtables : List ApoVTable} {clsid : Clsid}
    {v : ApoVTable}
    (h : vtables.find? (fun v => v.clsid == clsid) = some v) :
    FirstWith vtables clsid v := by
  obtain ⟨hclsid, before, after, hsplit, hbefore⟩ :=
    List.find?_eq_some_iff_append.mp h
  refine ⟨before, after, hsplit, by simpa using hclsid, ?_⟩
  intro u hu
  simpa using hbefore u hu

theorem FirstWith.mem {vtables : List ApoVTable} {clsid : Clsid}
    {v : ApoVTable} (h : FirstWith vtables clsid v) : v ∈ vtables := by
  obtain ⟨before, after, rfl, -, -⟩ := h
  simp

theorem FirstWith.self {vtables : List ApoVTable} {clsid : Clsid}
    {v : ApoVTable} (h : FirstWith vtables clsid v) :
    FirstWith vtables v.clsid v := by
  have hclsid : v.clsid = clsid := h.choose_spec.choose_spec.2.1
  rw [hclsid]
  exact h

/-- The ways the class-object dispatch can end. -/
inductive ClassObjectOutcome (com : ComLibrary) (kind : Kind) (s : Server)
    (rclsid riid : Option Guid) (ppv : Option Slot)
    (vtables : List ApoVTable) (called : Called HResult) : Prop
  | refused (hanswer : called.answer.isErr = true)
      (hslot : called.slot = ppv.map fun _ => none)
      (hserver : called.server = s)
  | queried (clsid : Guid) (v : ApoVTable) (hclsid : rclsid = some clsid)
      (hfirst : FirstWith vtables (Clsid.ofGuid clsid) v)
      (hanswer : called.answer = (com.query .factory kind riid).1)
      (hstored : (com.query .factory kind riid).2 = .interface)
      (hslot : called.slot = some (some (.factory s.factories.length)))
      (hserver : called.server =
        { s with
          factories := s.factories.alloc (ApoClassFactory.new kind v) })
  | notQueried (clsid : Guid) (v : ApoVTable) (hclsid : rclsid = some clsid)
      (hfirst : FirstWith vtables (Clsid.ofGuid clsid) v)
      (hanswer : called.answer = (com.query .factory kind riid).1)
      (hstored : (com.query .factory kind riid).2 ≠ .interface)
      (hslot : called.slot = some none)
      (hserver : called.server =
        { s with
          factories := (s.factories.alloc (ApoClassFactory.new kind v)).release
            s.factories.length })

theorem dllGetClassObjectDispatch_outcome (com : ComLibrary) (kind : Kind)
    (s : Server) (rclsid riid : Option Guid) (ppv : Option Slot)
    (vtables : List ApoVTable) :
    ClassObjectOutcome com kind s rclsid riid ppv vtables
      (s.dllGetClassObjectDispatch com kind rclsid riid ppv vtables) := by
  have hpointer : HResult.ePointer.isErr = true := by decide
  have hclass : HResult.classEClassnotavailable.isErr = true := by decide
  unfold Server.dllGetClassObjectDispatch
  split
  next => exact .refused hpointer rfl rfl
  next slot clsid iid =>
    dsimp only
    split
    next => exact .refused hclass rfl rfl
    next v hfind =>
      have hfirst := firstWith_of_find? hfind
      cases hstored : (com.query .factory kind (some iid)).2 with
      | interface =>
          refine .queried clsid v rfl hfirst rfl hstored rfl ?_
          exact congrArg (fun factories => { s with factories })
            (Pool.release_addRef _ _)
      | null =>
          exact .notQueried clsid v rfl hfirst rfl (by simp [hstored]) rfl rfl
      | untouched =>
          exact .notQueried clsid v rfl hfirst rfl (by simp [hstored]) rfl rfl
  next slot _ _ => exact .refused hpointer rfl rfl

/-! ## Ownership -/

/-- Every factory is bound to the first vtable with its CLSID in the registry
of its kind. -/
def FactoriesBound (registry : Kind → List ApoVTable) (s : Server) : Prop :=
  ∀ f ∈ s.factories.values, FirstWith (registry f.kind) f.vtable.clsid f.vtable

/-- No two carriers share an instance, and none is without one. -/
structure Separate (s : Server) : Prop where
  nodup : (s.carriers.values.map ApoInstanceCom.arc).Nodup
  placed : ∀ c ∈ s.carriers.values, c.arc < s.instances.length

theorem FactoriesBound.alloc (h : FactoriesBound registry s) {kind : Kind}
    {clsid : Clsid} {v : ApoVTable}
    (hfirst : FirstWith (registry kind) clsid v) :
    ∀ f ∈ (s.factories.alloc (ApoClassFactory.new kind v)).values,
      FirstWith (registry f.kind) f.vtable.clsid f.vtable := by
  intro f hf
  rw [Pool.values_alloc] at hf
  rcases List.mem_append.mp hf with hold | hnew
  · exact h f hold
  · obtain rfl := List.mem_singleton.mp hnew
    exact hfirst.self

/-- The creators of the macros put a new instance at the end of the heap. -/
theorem ApoVTable.Emitted.createCarrier {self : ApoClassFactory}
    (h : self.vtable.Emitted) (s : Server) :
    ∃ (σ : Type) (T : ProcessingObject σ),
      s.createCarrier self =
        { outstanding := s.outstanding + 1
          instances := s.instances ++ [{ T, inst := ApoInstance.new T }]
          factories := s.factories
          carriers := s.carriers.alloc
            { kind := self.kind, arc := s.instances.length } } := by
  obtain ⟨σ, T, hcreate⟩ := h
  refine ⟨σ, T, ?_⟩
  simp only [Server.createCarrier, hcreate, tympanApoCreate, Server.newCarrier,
    Server.outstandingInc]

theorem Separate.createCarrier (h : Separate s) {self : ApoClassFactory}
    (hemitted : self.vtable.Emitted) : Separate (s.createCarrier self) := by
  obtain ⟨σ, T, hcreated⟩ := hemitted.createCarrier s
  rw [hcreated]
  constructor
  · rw [Pool.values_alloc, List.map_append]
    refine List.nodup_append.mpr ⟨h.nodup, List.nodup_singleton _, ?_⟩
    intro arc harc fresh hfresh
    obtain ⟨c, hc, rfl⟩ := List.mem_map.mp harc
    obtain rfl := List.mem_singleton.mp hfresh
    exact Nat.ne_of_lt (h.placed c hc)
  · intro c hc
    rw [Pool.values_alloc] at hc
    rw [List.length_append]
    rcases List.mem_append.mp hc with hold | hnew
    · exact Nat.lt_add_right _ (h.placed c hold)
    · obtain rfl := List.mem_singleton.mp hnew
      exact Nat.lt_add_one _

/-- A release changes no more than a reference count and the counter. -/
theorem Server.releaseCarrier_frame (s : Server) (place : ℕ) :
    let released := (s.releaseCarrier place).1
    released.carriers.values = s.carriers.values ∧
      released.instances = s.instances ∧ released.factories = s.factories := by
  unfold Server.releaseCarrier
  split <;> exact ⟨Pool.values_release _ _, rfl, rfl⟩

theorem Separate.congr (h : Separate s)
    (hcarriers : s'.carriers.values = s.carriers.values)
    (hinstances : s'.instances.length = s.instances.length) : Separate s' := by
  constructor
  · rw [hcarriers]
    exact h.nodup
  · rw [hcarriers, hinstances]
    exact h.placed

theorem Separate.releaseCarrier (h : Separate s) (place : ℕ) :
    Separate (s.releaseCarrier place).1 := by
  obtain ⟨hcarriers, hinstances, -⟩ := s.releaseCarrier_frame place
  exact h.congr hcarriers (congrArg List.length hinstances)

theorem Separate.create (h : Separate s) {self : ApoClassFactory}
    {riid : Option Guid} {ppvObject : Option Slot}
    {called : Called (Except ComError Unit)} (hemitted : self.vtable.Emitted)
    (houtcome : CreateOutcome com s self riid ppvObject called) :
    Separate called.server := by
  cases houtcome with
  | refused _ _ _ hserver _ =>
      rw [hserver]
      exact h
  | queried _ _ _ hserver _ =>
      rw [hserver]
      exact h.createCarrier hemitted
  | notQueried _ _ _ hserver _ =>
      rw [hserver]
      exact (h.createCarrier hemitted).releaseCarrier _

theorem Separate.arc_ne (h : Separate s) {i j : ℕ} {c d : ApoInstanceCom}
    (hc : s.carriers.get? i = some c) (hd : s.carriers.get? j = some d)
    (hij : i ≠ j) : c.arc ≠ d.arc := by
  intro harc
  have hci : (s.carriers.values.map ApoInstanceCom.arc)[i]? = some c.arc := by
    rw [List.getElem?_map, Pool.values_of_get? hc, Option.map_some]
  have hdj : (s.carriers.values.map ApoInstanceCom.arc)[j]? = some c.arc := by
    rw [List.getElem?_map, Pool.values_of_get? hd, Option.map_some, harc]
  obtain ⟨hlt, -⟩ := List.getElem?_eq_some_iff.mp hci
  exact hij ((List.getElem?_inj hlt h.nodup).mp (hci.trans hdj.symm))

/-! ## Every run -/

/-- What a run keeps about factories and carriers. -/
structure Owned (registry : Kind → List ApoVTable) (s : Server) : Prop where
  bound : FactoriesBound registry s
  separate : Separate s

theorem Owned.emitted (h : Owned registry s)
    (hregistry : ∀ kind, ∀ v ∈ registry kind, v.Emitted) {place : ℕ}
    {self : ApoClassFactory} (hlive : s.factories.get? place = some self) :
    self.vtable.Emitted := by
  have hmem : self ∈ s.factories.values :=
    List.mem_of_getElem? (Pool.values_of_get? hlive)
  exact hregistry self.kind _ (h.bound self hmem).mem

theorem FactoriesBound.congr (h : FactoriesBound registry s)
    (hfactories : s'.factories.values = s.factories.values) :
    FactoriesBound registry s' := by
  unfold FactoriesBound
  rw [hfactories]
  exact h

theorem FactoriesBound.classObject (h : FactoriesBound registry s)
    {kind : Kind} {rclsid riid : Option Guid} {ppv : Option Slot}
    {called : Called HResult}
    (houtcome : ClassObjectOutcome com kind s rclsid riid ppv (registry kind)
      called) : FactoriesBound registry called.server := by
  cases houtcome with
  | refused _ _ hserver =>
      rw [hserver]
      exact h
  | queried clsid v _ hfirst _ _ _ hserver =>
      rw [hserver]
      exact h.alloc hfirst
  | notQueried clsid v _ hfirst _ _ _ hserver =>
      rw [hserver]
      unfold FactoriesBound
      rw [Pool.values_release]
      exact h.alloc hfirst

theorem FactoriesBound.lockServer (h : FactoriesBound registry s) (place : ℕ)
    (fLock : Bool) : FactoriesBound registry (s.lockServer place fLock) := by
  intro f hf
  simp only [Server.lockServer] at hf
  obtain ⟨g, hg, rfl | rfl⟩ := Pool.mem_values_update hf
  · exact h f hg
  · split <;> exact h g hg

theorem CreateOutcome.factories {self : ApoClassFactory}
    {riid : Option Guid} {ppvObject : Option Slot}
    {called : Called (Except ComError Unit)}
    (h : CreateOutcome com s self riid ppvObject called) :
    called.server.factories = s.factories := by
  cases h with
  | refused _ _ _ hserver _ => rw [hserver]
  | queried _ _ _ hserver _ =>
      rw [hserver]
      rfl
  | notQueried _ _ _ hserver _ =>
      rw [hserver, ((s.createCarrier self).releaseCarrier_frame _).2.2]
      rfl

theorem Owned.transition (h : Owned registry s)
    (hregistry : ∀ kind, ∀ v ∈ registry kind, v.Emitted)
    (htransition : Transition com registry s a s' es) : Owned registry s' := by
  cases htransition with
  | classObject kind rclsid riid ppv called hcalled =>
      obtain ⟨-, hcarriers, hinstances, -⟩ :=
        s.dllGetClassObjectDispatch_frame com kind rclsid riid ppv (registry kind)
      subst hcalled
      exact ⟨h.bound.classObject (dllGetClassObjectDispatch_outcome _ _ _ _ _ _ _),
        h.separate.congr (congrArg Pool.values hcarriers)
          (congrArg List.length hinstances)⟩
  | create factory self punkOuter riid ppvObject called hlive houtcome =>
      refine ⟨h.bound.congr ?_,
        h.separate.create (h.emitted hregistry hlive) houtcome⟩
      rw [houtcome.factories]
  | lockServer factory self fLock hlive hmatched =>
      exact ⟨h.bound.lockServer factory fLock, h.separate.congr rfl rfl⟩
  | addRefFactory place self hlive =>
      exact ⟨h.bound.congr (Pool.values_addRef _ _), h.separate.congr rfl rfl⟩
  | addRefCarrier place carrier hlive =>
      exact ⟨h.bound.congr rfl,
        h.separate.congr (Pool.values_addRef _ _) rfl⟩
  | releaseFactory place self hlive =>
      exact ⟨h.bound.congr (Pool.values_release _ _), h.separate.congr rfl rfl⟩
  | releaseCarrier place carrier hlive =>
      refine ⟨h.bound.congr ?_, h.separate.releaseCarrier place⟩
      rw [(s.releaseCarrier_frame place).2.2]
  | invoke place carrier call hlive =>
      exact ⟨h.bound.congr rfl,
        h.separate.congr rfl (List.length_modify _ _ _)⟩
  | canUnloadNow => exact h

theorem owned_of_reaches {H : List Event}
    (hregistry : ∀ kind, ∀ v ∈ registry kind, v.Emitted)
    (h : (machine com registry).Reaches H s) : Owned registry s := by
  refine h.invariant (I := fun _ s => Owned registry s) ?_ ?_
  · exact ⟨by simp [FactoriesBound, machine, Server.loaded, Pool.values],
      by simp [machine, Server.loaded, Pool.values],
      by simp [machine, Server.loaded, Pool.values]⟩
  · intro H es s s' a howned _ hstep
    exact howned.transition hregistry (step_transition hstep)

/-! ## The contract of the DLL -/

/-- A failed call leaves the counter and the live carriers as they were, and a
null pointer in a slot it was given. -/
structure LeavesNoTrace {ρ : Type} (s : Server) (slot : Option Slot)
    (called : Called ρ) : Prop where
  outstanding : called.server.outstanding = s.outstanding
  live : called.server.carriers.live = s.carriers.live
  null : slot.isSome → called.slot = some none

/-- A successful `CreateInstance` returns a carrier that was not there before,
around an instance no other carrier has, in its initial state. -/
structure CreatesFresh (s : Server)
    (called : Called (Except ComError Unit)) : Prop where
  slot : called.slot = some (some (.carrier s.carriers.length))
  carrier : ∃ c any,
    called.server.carriers.get? s.carriers.length = some c ∧
      called.server.instances[c.arc]? = some any ∧
      (∀ d ∈ s.carriers.values, d.arc ≠ c.arc) ∧
      any.inst = ApoInstance.new any.T ∧ any.inst.state.load = .uninitialized
  counted : called.server.carriers.live = s.carriers.live + 1

/-- A successful request returns a new factory bound to the first vtable with
the CLSID asked for. -/
structure BindsFirst (vtables : List ApoVTable) (kind : Kind)
    (rclsid : Option Guid) (s : Server) (called : Called HResult) : Prop where
  slot : called.slot = some (some (.factory s.factories.length))
  vtable : ∃ clsid v, rclsid = some clsid ∧
    FirstWith vtables (Clsid.ofGuid clsid) v ∧
    called.server.factories.get? s.factories.length =
      some (ApoClassFactory.new kind v)

theorem ClassObjectOutcome.bindsFirst (hcom : com.Documented) {kind : Kind}
    {rclsid riid : Option Guid} {ppv : Option Slot}
    {vtables : List ApoVTable} {called : Called HResult}
    (h : ClassObjectOutcome com kind s rclsid riid ppv vtables called)
    (hok : called.answer.isOk) : BindsFirst vtables kind rclsid s called := by
  cases h with
  | refused hanswer =>
      rw [HResult.isErr_eq_not_isOk, hok] at hanswer
      cases hanswer
  | queried clsid v hclsid hfirst _ _ hslot hserver =>
      refine ⟨hslot, clsid, v, hclsid, hfirst, ?_⟩
      rw [hserver]
      exact Pool.get?_alloc_length _ _
  | notQueried _ _ _ _ hanswer hstored =>
      rw [hanswer] at hok
      exact absurd (hcom.stored_of_ok _ _ _ hok) hstored

theorem ClassObjectOutcome.leavesNoTrace (hcom : com.Documented) {kind : Kind}
    {rclsid riid : Option Guid} {ppv : Option Slot}
    {vtables : List ApoVTable} {called : Called HResult}
    (h : ClassObjectOutcome com kind s rclsid riid ppv vtables called)
    (herr : called.answer.isErr) : LeavesNoTrace s ppv called := by
  cases h with
  | refused _ hslot hserver =>
      refine ⟨by rw [hserver], by rw [hserver], ?_⟩
      intro hppv
      obtain ⟨slot, rfl⟩ := Option.isSome_iff_exists.mp hppv
      exact hslot
  | queried _ _ _ _ hanswer hstored =>
      rw [hanswer] at herr
      exact absurd hstored (hcom.not_stored_of_err _ _ _ herr)
  | notQueried _ _ _ _ _ _ hslot hserver =>
      exact ⟨by rw [hserver], by rw [hserver], fun _ => hslot⟩

theorem isOk_of_mapError {hr : HResult} {f : HResult → ComError}
    (h : hr.ok.mapError f = .ok ()) : hr.isOk = true := by
  unfold HResult.ok at h
  split at h
  next hok => exact hok
  next => cases h

theorem isErr_of_mapError {hr : HResult} {f : HResult → ComError}
    {e : ComError} (h : hr.ok.mapError f = .error e) : hr.isErr = true := by
  unfold HResult.ok at h
  split at h
  next => cases h
  next hok => simpa [HResult.isErr_eq_not_isOk] using hok

/-- Dropping the new carrier takes the count back. -/
theorem releaseCarrier_createCarrier (s : Server) (self : ApoClassFactory) :
    let released := ((s.createCarrier self).releaseCarrier s.carriers.length).1
    released.outstanding = s.outstanding ∧
      released.carriers.live = s.carriers.live := by
  have hlast : (s.createCarrier self).carriers.isLast s.carriers.length =
      true := Pool.isLast_alloc _ _
  have hlive := Pool.live_release_of_last hlast
  rw [s.createCarrier_carriers, Pool.live_alloc] at hlive
  simp only [Server.releaseCarrier, hlast, if_true, Server.outstandingDec]
  constructor
  · exact UInt32.add_sub_cancel s.outstanding 1
  · exact Nat.add_right_cancel hlive

theorem CreateOutcome.createsFresh (hcom : com.Documented)
    (hseparate : Separate s) {self : ApoClassFactory} {riid : Option Guid}
    {ppvObject : Option Slot} {called : Called (Except ComError Unit)}
    (hemitted : self.vtable.Emitted)
    (h : CreateOutcome com s self riid ppvObject called)
    (hok : called.answer = .ok ()) : CreatesFresh s called := by
  cases h with
  | refused _ hanswer =>
      rw [hanswer] at hok
      cases hok
  | queried _ _ hslot hserver _ =>
      obtain ⟨σ, T, hcreated⟩ := hemitted.createCarrier s
      rw [hcreated] at hserver
      refine ⟨hslot, ⟨{ kind := self.kind, arc := s.instances.length },
        { T, inst := ApoInstance.new T }, ?_, ?_, ?_, rfl, ?_⟩, ?_⟩
      · rw [hserver]
        exact Pool.get?_alloc_length _ _
      · rw [hserver]
        exact List.getElem?_concat_length
      · intro d hd
        exact Nat.ne_of_lt (hseparate.placed d hd)
      · exact StateCell.load_new
      · rw [hserver]
        exact Pool.live_alloc _ _
  | notQueried hanswer hstored _ _ _ =>
      have hisOk := isOk_of_mapError (hanswer.symm.trans hok)
      exact absurd (hcom.stored_of_ok _ _ _ hisOk) hstored

theorem CreateOutcome.leavesNoTrace (hcom : com.Documented)
    {self : ApoClassFactory} {riid : Option Guid} {ppvObject : Option Slot}
    {called : Called (Except ComError Unit)} {e : ComError}
    (h : CreateOutcome com s self riid ppvObject called)
    (herr : called.answer = .error e) : LeavesNoTrace s ppvObject called := by
  cases h with
  | refused _ _ hslot hserver _ =>
      refine ⟨by rw [hserver], by rw [hserver], ?_⟩
      intro hppv
      obtain ⟨slot, rfl⟩ := Option.isSome_iff_exists.mp hppv
      exact hslot
  | queried hanswer hstored _ _ _ =>
      have hisErr := isErr_of_mapError (hanswer.symm.trans herr)
      exact absurd hstored (hcom.not_stored_of_err _ _ _ hisErr)
  | notQueried _ _ hslot hserver _ =>
      obtain ⟨houtstanding, hlive⟩ := releaseCarrier_createCarrier s self
      exact ⟨by rw [hserver, houtstanding], by rw [hserver, hlive],
        fun _ => hslot⟩

/-! ### Instances of other carriers -/

theorem CreateOutcome.instances {self : ApoClassFactory} {riid : Option Guid}
    {ppvObject : Option Slot} {called : Called (Except ComError Unit)}
    (hemitted : self.vtable.Emitted)
    (h : CreateOutcome com s self riid ppvObject called) :
    s.instances <+: called.server.instances := by
  obtain ⟨σ, T, hcreated⟩ := hemitted.createCarrier s
  cases h with
  | refused _ _ _ hserver _ =>
      refine ⟨[], ?_⟩
      rw [hserver, List.append_nil]
  | queried _ _ _ hserver _ =>
      rw [hserver, hcreated]
      exact List.prefix_append _ _
  | notQueried _ _ _ hserver _ =>
      rw [hserver, ((s.createCarrier self).releaseCarrier_frame _).2.1,
        hcreated]
      exact List.prefix_append _ _

/-- Only a call through a carrier changes its instance. -/
theorem Owned.instance_unchanged (h : Owned registry s)
    (hregistry : ∀ kind, ∀ v ∈ registry kind, v.Emitted)
    (htransition : Transition com registry s a s' es) {place : ℕ}
    {carrier : ApoInstanceCom} (hlive : s.carriers.get? place = some carrier)
    (hother : ∀ call, a ≠ .invoke place call) :
    s'.instances[carrier.arc]? = s.instances[carrier.arc]? := by
  cases htransition with
  | classObject kind rclsid riid ppv called hcalled =>
      obtain ⟨-, -, hinstances, -⟩ :=
        s.dllGetClassObjectDispatch_frame com kind rclsid riid ppv (registry kind)
      rw [hcalled, hinstances]
  | create factory self punkOuter riid ppvObject called hfactory houtcome =>
      have hemitted := h.emitted hregistry hfactory
      have hmem : carrier ∈ s.carriers.values :=
        List.mem_of_getElem? (Pool.values_of_get? hlive)
      obtain ⟨fresh, happend⟩ := houtcome.instances hemitted
      rw [← happend]
      exact List.getElem?_append_left (h.separate.placed carrier hmem)
  | releaseCarrier released other hreleased =>
      rw [(s.releaseCarrier_frame released).2.1]
  | invoke invoked self call hinvoked =>
      have hplaces : invoked ≠ place := by
        rintro rfl
        exact hother call rfl
      have harcs := h.separate.arc_ne hinvoked hlive hplaces
      exact List.getElem?_modify_ne _ _ harcs
  | lockServer => rfl
  | addRefFactory => rfl
  | addRefCarrier => rfl
  | releaseFactory => rfl
  | canUnloadNow => rfl

/-! ### The contract -/

/-- What the clients of the DLL can rely on after a run with history `H`. -/
structure ServerContract (com : ComLibrary)
    (registry : Kind → List ApoVTable) (H : List Event) (s : Server) :
    Prop where
  counter : s.carriers.live < 2 ^ 32 → s.outstanding.toNat = s.carriers.live
  dropped : ∀ before alive, .outstandingDec before alive ∈ H →
    alive < 2 ^ 32 → before.toNat = alive ∧ 0 < before.toNat
  bound : FactoriesBound registry s
  request : ∀ kind rclsid riid ppv,
    let called :=
      s.dllGetClassObjectDispatch com kind rclsid riid ppv (registry kind)
    (called.answer.isOk → BindsFirst (registry kind) kind rclsid s called) ∧
      (called.answer.isErr → LeavesNoTrace s ppv called)
  create : ∀ factory self punkOuter riid ppvObject,
    s.factories.get? factory = some self →
      let called := createInstanceOf com s self punkOuter riid ppvObject
      (called.answer = .ok () → CreatesFresh s called) ∧
        ∀ e, called.answer = .error e → LeavesNoTrace s ppvObject called
  owned : ∀ place carrier, s.carriers.get? place = some carrier →
    ∃ any, s.instances[carrier.arc]? = some any
  apart : ∀ i j c d, s.carriers.get? i = some c → s.carriers.get? j = some d →
    i ≠ j → c.arc ≠ d.arc
  unchanged : ∀ a s' es, step com registry s a = some (s', es) →
    ∀ place carrier, s.carriers.get? place = some carrier →
      (∀ call, a ≠ .invoke place call) →
        s'.instances[carrier.arc]? = s.instances[carrier.arc]?

theorem Counts.toNat_eq (h : Counts s) (hlive : s.carriers.live < 2 ^ 32) :
    s.outstanding.toNat = s.carriers.live := by
  rw [h, UInt32.toNat_ofNat']
  exact Nat.mod_eq_of_lt hlive

theorem Event.DecExact.toNat_eq {before : UInt32} {alive : ℕ}
    (h : (Event.outstandingDec before alive).DecExact)
    (halive : alive < 2 ^ 32) : before.toNat = alive ∧ 0 < before.toNat := by
  obtain ⟨rfl, hpos⟩ := h
  rw [UInt32.toNat_ofNat', Nat.mod_eq_of_lt halive]
  exact ⟨rfl, hpos⟩

/-- Every run of calls on the DLL meets the contract. -/
theorem serverContract_of_reaches {com : ComLibrary}
    {registry : Kind → List ApoVTable} {H : List Event} {s : Server}
    (hcom : com.Documented)
    (hregistry : ∀ kind, ∀ v ∈ registry kind, v.Emitted)
    (hreach : (machine com registry).Reaches H s) :
    ServerContract com registry H s := by
  obtain ⟨hcounts, hdec⟩ := counts_of_reaches hreach
  have howned := owned_of_reaches hregistry hreach
  constructor
  case counter => exact hcounts.toNat_eq
  case dropped =>
    intro before alive hmem halive
    exact (hdec _ hmem).toNat_eq halive
  case bound => exact howned.bound
  case request =>
    intro kind rclsid riid ppv
    have houtcome := dllGetClassObjectDispatch_outcome com kind s rclsid riid
      ppv (registry kind)
    exact ⟨houtcome.bindsFirst hcom, houtcome.leavesNoTrace hcom⟩
  case create =>
    intro factory self punkOuter riid ppvObject hfactory
    have hemitted := howned.emitted hregistry hfactory
    have houtcome := createInstanceOf_outcome com s self punkOuter riid
      ppvObject
    exact ⟨houtcome.createsFresh hcom howned.separate hemitted,
      fun e => houtcome.leavesNoTrace hcom⟩
  case owned =>
    intro place carrier hlive
    have hmem : carrier ∈ s.carriers.values :=
      List.mem_of_getElem? (Pool.values_of_get? hlive)
    exact ⟨_, List.getElem?_eq_getElem (howned.separate.placed carrier hmem)⟩
  case apart =>
    intro i j c d hc hd
    exact howned.separate.arc_ne hc hd
  case unchanged =>
    intro a s' es hstep place carrier hlive hother
    exact howned.instance_unchanged hregistry (step_transition hstep) hlive
      hother

theorem answeringCom_documented : answeringCom.Documented where
  stored_of_ok _ _ _ _ := rfl
  not_stored_of_err _ _ _ herr := by
    have hok : HResult.sOk.isErr = false := by decide
    rw [answeringCom, hok] at herr
    cases herr

theorem passthroughRegistry_emitted :
    ∀ kind, ∀ v ∈ passthroughRegistry kind, v.Emitted := by
  intro kind v hv
  obtain rfl := List.mem_singleton.mp hv
  exact ⟨Unit, passthrough, rfl⟩

/-- A SISO and an AEC carrier are created, and the first is dropped again. -/
theorem serverContract_two_carriers :
    ∃ H s, ServerContract answeringCom passthroughRegistry H s ∧
      s.carriers.live = 1 ∧ s.outstanding = 1 := by
  have hreach : (machine answeringCom passthroughRegistry).Reaches _ _ :=
    Machine.reaches_of_exec
      [.getClassObject .siso (some passthrough.clsid.toGuid)
          (some passthrough.clsid.toGuid) (some none),
        .getClassObject .aec (some passthrough.clsid.toGuid)
          (some passthrough.clsid.toGuid) (some none),
        .createInstance 0 none (some passthrough.clsid.toGuid) (some none),
        .createInstance 1 none (some passthrough.clsid.toGuid) (some none),
        .release (.carrier 0)]
      rfl
  exact ⟨_, _, serverContract_of_reaches answeringCom_documented
    passthroughRegistry_emitted hreach, by decide, by decide⟩

end TympanApo.ComServer
