import TympanApo.Raw.ClassFactory
import TympanApo.Support.Run

/-!
# The entry points of the DLL

`raw/exports.rs` and `aec/exports.rs`: the class-object dispatch, the unload
probe, and the DLL as a machine over calls of its clients.  Clients hold
references to what they call, release no more than they hold, and match every
`LockServer(FALSE)` with an earlier `LockServer(TRUE)` on the same factory.
-/

namespace TympanApo.ComServer

open TympanApo.Support

namespace Server

/-- `dll_get_class_object_dispatch` and its AEC twin. -/
def dllGetClassObjectDispatch (com : ComLibrary) (kind : Kind) (s : Server)
    (rclsid riid : Option Guid) (ppv : Option Slot)
    (registry : List ApoVTable) : Called HResult :=
  match ppv, rclsid, riid with
  | none, _, _ =>
      { answer := HResult.ePointer, slot := none, server := s, events := [] }
  | some _, some rclsid, some riid =>
      let requested := Clsid.ofGuid rclsid
      match registry.find? (fun v => v.clsid == requested) with
      | none =>
          { answer := HResult.classEClassnotavailable
            slot := some none
            server := s
            events := [] }
      | some vtable =>
          let unknown := s.factories.length
          let created := s.factories.alloc (ApoClassFactory.new kind vtable)
          let (hr, stored) := com.query .factory kind (some riid)
          let queried :=
            match stored with
            | .interface => created.addRef unknown
            | _ => created
          { answer := hr
            slot := some (stored.into (.factory unknown) none)
            server := { s with factories := queried.release unknown }
            events := [] }
  | some _, _, _ =>
      { answer := HResult.ePointer
        slot := some none
        server := s
        events := [] }

/-- `dll_can_unload_now_dispatch`. -/
def dllCanUnloadNowDispatch (s : Server) : HResult :=
  if s.outstandingCount = 0 then HResult.sOk else HResult.sFalse

/-- A `LockServer(TRUE)` is outstanding on some factory. -/
def locked (s : Server) : Bool :=
  s.factories.values.any fun f => f.pendingLocks ≠ 0

/-- A method call through a live carrier. -/
def invoke (s : Server) (carrier : ApoInstanceCom) (call : Lifecycle.Call) :
    Server :=
  { s with
    instances := s.instances.modify carrier.arc fun any =>
      { T := any.T, inst := (Lifecycle.perform any.T any.inst call).inst } }

end Server

/-! ## Runs -/

/-- A call of a client.  `invoke` reaches the `ApoInstance` behind a carrier of
either kind; the auxiliary methods of an echo canceller are left out. -/
inductive Action
  | getClassObject (kind : Kind) (rclsid riid : Option Guid)
      (ppv : Option Slot)
  | createInstance (factory : ℕ) (punkOuter : Option Interface)
      (riid : Option Guid) (ppvObject : Option Slot)
  | lockServer (factory : ℕ) (fLock : Bool)
  | addRef (object : Interface)
  | release (object : Interface)
  | invoke (carrier : ℕ) (call : Lifecycle.Call)
  | canUnloadNow

/-- `CreateInstance` on a factory of either kind. -/
def createInstanceOf (com : ComLibrary) (s : Server) (self : ApoClassFactory)
    (punkOuter : Option Interface) (riid : Option Guid)
    (ppvObject : Option Slot) : Called (Except ComError Unit) :=
  match self.kind with
  | .siso => s.createInstance com self punkOuter riid ppvObject
  | .aec => s.aecCreateInstance com self punkOuter riid ppvObject

/-- One call. -/
def step (com : ComLibrary) (registry : Kind → List ApoVTable) (s : Server) :
    Action → Option (Server × List Event)
  | .getClassObject kind rclsid riid ppv =>
      let called :=
        s.dllGetClassObjectDispatch com kind rclsid riid ppv (registry kind)
      some (called.server, called.events)
  | .createInstance factory punkOuter riid ppvObject =>
      match s.factories.get? factory with
      | none => none
      | some self =>
          let called := createInstanceOf com s self punkOuter riid ppvObject
          some (called.server, called.events)
  | .lockServer factory fLock =>
      match s.factories.get? factory with
      | none => none
      | some self =>
          if fLock ∨ self.pendingLocks ≠ 0 then
            some (s.lockServer factory fLock, [])
          else none
  | .addRef (.factory place) =>
      match s.factories.get? place with
      | none => none
      | some _ => some ({ s with factories := s.factories.addRef place }, [])
  | .addRef (.carrier place) =>
      match s.carriers.get? place with
      | none => none
      | some _ => some (s.addRefCarrier place, [])
  | .release (.factory place) =>
      match s.factories.get? place with
      | none => none
      | some _ => some ({ s with factories := s.factories.release place }, [])
  | .release (.carrier place) =>
      match s.carriers.get? place with
      | none => none
      | some _ => some (s.releaseCarrier place)
  | .invoke carrier call =>
      match s.carriers.get? carrier with
      | none => none
      | some self => some (s.invoke self call, [])
  | .canUnloadNow =>
      some (s, [.canUnloadReturned s.dllCanUnloadNowDispatch s.carriers.live
        s.locked])

/-- Any sequence of calls on a loaded DLL. -/
def machine (com : ComLibrary) (registry : Kind → List ApoVTable) :
    Machine Server Action Event where
  init := Server.loaded
  step := step com registry

/-! ## The counter -/

/-- The counter is the number of live carriers, modulo its width. -/
def Counts (s : Server) : Prop :=
  s.outstanding = UInt32.ofNat s.carriers.live

/-- The counter was exact when a carrier was dropped. -/
def Event.DecExact : Event → Prop
  | .outstandingDec before alive =>
      before = UInt32.ofNat alive ∧ 0 < alive
  | _ => True

variable {s s' : Server} {com : ComLibrary}

theorem Counts.newCarrier (h : Counts s) (carrier : ApoInstanceCom) :
    Counts (s.newCarrier carrier) := by
  rw [Counts, Server.newCarrier, Server.outstandingInc, Pool.live_alloc,
    UInt32.ofNat_add, h]
  rfl

theorem Counts.addRefCarrier {place : ℕ} {carrier : ApoInstanceCom}
    (h : Counts s) (hlive : s.carriers.get? place = some carrier) :
    Counts (s.addRefCarrier place) := by
  rw [Counts, Server.addRefCarrier, Pool.live_addRef hlive]
  exact h

theorem Counts.releaseCarrier {place : ℕ} {carrier : ApoInstanceCom}
    (h : Counts s) (hlive : s.carriers.get? place = some carrier) :
    Counts (s.releaseCarrier place).1 ∧
      ∀ e ∈ (s.releaseCarrier place).2, e.DecExact := by
  unfold Server.releaseCarrier
  by_cases hlast : s.carriers.isLast place = true
  · simp only [hlast, if_true]
    constructor
    · have hlive' := Pool.live_release_of_last hlast
      rw [Counts] at h
      rw [Counts, Server.outstandingDec, h, ← hlive', UInt32.ofNat_add]
      simp
    · intro e he
      obtain rfl := List.mem_singleton.mp he
      exact ⟨h, Pool.live_pos hlive⟩
  · rw [Bool.not_eq_true] at hlast
    simp only [hlast, Bool.false_eq_true, if_false]
    constructor
    · rw [Counts, Pool.live_release_of_not_last hlive hlast]
      exact h
    · intro e he
      cases he

/-! ## What a call does -/

theorem Server.createCarrier_carriers (s : Server) (self : ApoClassFactory) :
    (s.createCarrier self).carriers =
      s.carriers.alloc
        { kind := self.kind, arc := (self.vtable.create s.instances).2 } :=
  rfl

theorem Server.get?_createCarrier (s : Server) (self : ApoClassFactory) :
    (s.createCarrier self).carriers.get? s.carriers.length =
      some { kind := self.kind, arc := (self.vtable.create s.instances).2 } :=
  Pool.get?_alloc_length _ _

/-- A reference taken and given up again leaves the carrier as it was. -/
theorem Server.releaseCarrier_addRefCarrier {place : ℕ}
    {carrier : ApoInstanceCom} (h : s.carriers.get? place = some carrier) :
    (s.addRefCarrier place).releaseCarrier place = (s, []) := by
  have hlast := Pool.isLast_addRef h
  simp only [Server.releaseCarrier, Server.addRefCarrier, hlast,
    Bool.false_eq_true, if_false, Pool.release_addRef]

/-- The ways `CreateInstance` can end. -/
inductive CreateOutcome (com : ComLibrary) (s : Server)
    (self : ApoClassFactory) (riid : Option Guid) (ppvObject : Option Slot)
    (called : Called (Except ComError Unit)) : Prop
  | refused (e : ComError) (hanswer : called.answer = .error e)
      (hslot : called.slot = ppvObject.map fun _ => none)
      (hserver : called.server = s) (hevents : called.events = [])
  | queried (hanswer : called.answer =
        (com.query .carrier self.kind riid).1.ok.mapError
          fun code => { code, message := "" })
      (hstored : (com.query .carrier self.kind riid).2 = .interface)
      (hslot : called.slot = some (some (.carrier s.carriers.length)))
      (hserver : called.server = s.createCarrier self)
      (hevents : called.events = [])
  | notQueried (hanswer : called.answer =
        (com.query .carrier self.kind riid).1.ok.mapError
          fun code => { code, message := "" })
      (hstored : (com.query .carrier self.kind riid).2 ≠ .interface)
      (hslot : called.slot = some none)
      (hserver : called.server =
        ((s.createCarrier self).releaseCarrier s.carriers.length).1)
      (hevents : called.events =
        ((s.createCarrier self).releaseCarrier s.carriers.length).2)

theorem createInstanceWith_outcome (noAggregation : String)
    (self : ApoClassFactory) (punkOuter : Option Interface)
    (riid : Option Guid) (ppvObject : Option Slot) :
    CreateOutcome com s self riid ppvObject
      (s.createInstanceWith noAggregation com self punkOuter riid
        ppvObject) := by
  cases ppvObject with
  | none => exact .refused _ rfl rfl rfl rfl
  | some slot =>
      by_cases houter : punkOuter.isSome = true
      · simp only [Server.createInstanceWith, houter, if_true]
        exact .refused _ rfl rfl rfl rfl
      · simp only [Server.createInstanceWith, houter]
        cases hstored : (com.query .carrier self.kind riid).2 with
        | interface =>
            have hrelease := Server.releaseCarrier_addRefCarrier
              (s.get?_createCarrier self)
            refine .queried rfl hstored rfl ?_ ?_
            · exact congrArg Prod.fst hrelease
            · exact congrArg Prod.snd hrelease
        | null => exact .notQueried rfl (by simp [hstored]) rfl rfl rfl
        | untouched => exact .notQueried rfl (by simp [hstored]) rfl rfl rfl

theorem createInstanceOf_outcome (com : ComLibrary) (s : Server)
    (self : ApoClassFactory)
    (punkOuter : Option Interface) (riid : Option Guid)
    (ppvObject : Option Slot) :
    CreateOutcome com s self riid ppvObject
      (createInstanceOf com s self punkOuter riid ppvObject) := by
  unfold createInstanceOf
  split <;> exact createInstanceWith_outcome _ self punkOuter riid ppvObject

/-- The class-object dispatch touches nothing but the factories. -/
theorem Server.dllGetClassObjectDispatch_frame (s : Server)
    (com : ComLibrary) (kind : Kind)
    (rclsid riid : Option Guid) (ppv : Option Slot)
    (registry : List ApoVTable) :
    let called := s.dllGetClassObjectDispatch com kind rclsid riid ppv registry
    called.server.outstanding = s.outstanding ∧
      called.server.carriers = s.carriers ∧
      called.server.instances = s.instances ∧ called.events = [] := by
  unfold Server.dllGetClassObjectDispatch
  split
  next => exact ⟨rfl, rfl, rfl, rfl⟩
  next =>
    dsimp only
    split
    next => exact ⟨rfl, rfl, rfl, rfl⟩
    next => exact ⟨rfl, rfl, rfl, rfl⟩
  next => exact ⟨rfl, rfl, rfl, rfl⟩

theorem Counts.createInstance {self : ApoClassFactory} {riid : Option Guid}
    {ppvObject : Option Slot} {called : Called (Except ComError Unit)}
    (h : Counts s) (houtcome : CreateOutcome com s self riid ppvObject called) :
    Counts called.server ∧ ∀ e ∈ called.events, e.DecExact := by
  have hcreated : Counts (s.createCarrier self) :=
    Counts.newCarrier (s := { s with
      instances := (self.vtable.create s.instances).1 }) h _
  cases houtcome with
  | refused _ _ _ hserver hevents =>
      rw [hserver, hevents]
      exact ⟨h, by simp⟩
  | queried _ _ _ hserver hevents =>
      rw [hserver, hevents]
      exact ⟨hcreated, by simp⟩
  | notQueried _ _ _ hserver hevents =>
      rw [hserver, hevents]
      exact hcreated.releaseCarrier (s.get?_createCarrier self)

/-- The calls that are enabled, one constructor for each kind of object they
are made on. -/
inductive Transition (com : ComLibrary) (registry : Kind → List ApoVTable)
    (s : Server) : Action → Server → List Event → Prop
  | classObject (kind : Kind) (rclsid riid : Option Guid) (ppv : Option Slot)
      (called : Called HResult)
      (hcalled : called = s.dllGetClassObjectDispatch com kind rclsid riid ppv
        (registry kind)) :
      Transition com registry s (.getClassObject kind rclsid riid ppv)
        called.server called.events
  | create (factory : ℕ) (self : ApoClassFactory)
      (punkOuter : Option Interface) (riid : Option Guid)
      (ppvObject : Option Slot) (called : Called (Except ComError Unit))
      (hlive : s.factories.get? factory = some self)
      (houtcome : CreateOutcome com s self riid ppvObject called) :
      Transition com registry s
        (.createInstance factory punkOuter riid ppvObject)
        called.server called.events
  | lockServer (factory : ℕ) (self : ApoClassFactory) (fLock : Bool)
      (hlive : s.factories.get? factory = some self)
      (hmatched : fLock ∨ self.pendingLocks ≠ 0) :
      Transition com registry s (.lockServer factory fLock)
        (s.lockServer factory fLock) []
  | addRefFactory (place : ℕ) (self : ApoClassFactory)
      (hlive : s.factories.get? place = some self) :
      Transition com registry s (.addRef (.factory place))
        { s with factories := s.factories.addRef place } []
  | addRefCarrier (place : ℕ) (carrier : ApoInstanceCom)
      (hlive : s.carriers.get? place = some carrier) :
      Transition com registry s (.addRef (.carrier place))
        (s.addRefCarrier place) []
  | releaseFactory (place : ℕ) (self : ApoClassFactory)
      (hlive : s.factories.get? place = some self) :
      Transition com registry s (.release (.factory place))
        { s with factories := s.factories.release place } []
  | releaseCarrier (place : ℕ) (carrier : ApoInstanceCom)
      (hlive : s.carriers.get? place = some carrier) :
      Transition com registry s (.release (.carrier place))
        (s.releaseCarrier place).1 (s.releaseCarrier place).2
  | invoke (place : ℕ) (carrier : ApoInstanceCom) (call : Lifecycle.Call)
      (hlive : s.carriers.get? place = some carrier) :
      Transition com registry s (.invoke place call) (s.invoke carrier call) []
  | canUnloadNow :
      Transition com registry s .canUnloadNow s
        [.canUnloadReturned s.dllCanUnloadNowDispatch s.carriers.live s.locked]

variable {registry : Kind → List ApoVTable} {a : Action} {es : List Event}

theorem step_transition (h : step com registry s a = some (s', es)) :
    Transition com registry s a s' es := by
  cases a with
  | getClassObject kind rclsid riid ppv =>
      cases h
      exact .classObject kind rclsid riid ppv _ rfl
  | createInstance factory punkOuter riid ppvObject =>
      simp only [step] at h
      split at h
      · cases h
      next self hlive =>
        cases h
        exact .create factory self punkOuter riid ppvObject _ hlive
          (createInstanceOf_outcome com s self punkOuter riid ppvObject)
  | lockServer factory fLock =>
      simp only [step] at h
      split at h
      · cases h
      next self hlive =>
        split at h <;> cases h
        next hmatched => exact .lockServer factory self fLock hlive hmatched
  | addRef object =>
      cases object with
      | factory place =>
          simp only [step] at h
          split at h <;> cases h
          next self hlive => exact .addRefFactory place self hlive
      | carrier place =>
          simp only [step] at h
          split at h
          · cases h
          next carrier hlive =>
            cases h
            exact .addRefCarrier place carrier hlive
  | release object =>
      cases object with
      | factory place =>
          simp only [step] at h
          split at h <;> cases h
          next self hlive => exact .releaseFactory place self hlive
      | carrier place =>
          simp only [step] at h
          split at h
          · cases h
          next carrier hlive =>
            have hreleased := Option.some.inj h
            obtain ⟨rfl, rfl⟩ : (s.releaseCarrier place).1 = s' ∧
                (s.releaseCarrier place).2 = es := by
              rw [hreleased]
              exact ⟨rfl, rfl⟩
            exact .releaseCarrier place carrier hlive
  | invoke place call =>
      simp only [step] at h
      split at h <;> cases h
      next carrier hlive => exact .invoke place carrier call hlive
  | canUnloadNow =>
      cases h
      exact .canUnloadNow

/-- Every call keeps the count, and drops a carrier only while it is exact. -/
theorem Counts.transition (h : Counts s)
    (htransition : Transition com registry s a s' es) :
    Counts s' ∧ ∀ e ∈ es, e.DecExact := by
  cases htransition with
  | classObject kind rclsid riid ppv called hcalled =>
      obtain ⟨houtstanding, hcarriers, -, hevents⟩ :=
        s.dllGetClassObjectDispatch_frame com kind rclsid riid ppv (registry kind)
      rw [← hcalled] at houtstanding hcarriers hevents
      rw [Counts, houtstanding, hcarriers, hevents]
      exact ⟨h, by simp⟩
  | create factory self punkOuter riid ppvObject called hlive houtcome =>
      exact h.createInstance houtcome
  | addRefCarrier place carrier hlive => exact ⟨h.addRefCarrier hlive, by simp⟩
  | releaseCarrier place carrier hlive => exact h.releaseCarrier hlive
  | canUnloadNow => exact ⟨h, by simp [Event.DecExact]⟩
  | lockServer => exact ⟨h, by simp⟩
  | addRefFactory => exact ⟨h, by simp⟩
  | releaseFactory => exact ⟨h, by simp⟩
  | invoke => exact ⟨h, by simp⟩

theorem counts_of_reaches {H : List Event}
    (h : (machine com registry).Reaches H s) :
    Counts s ∧ ∀ e ∈ H, e.DecExact := by
  refine h.invariant (I := fun H s => Counts s ∧ ∀ e ∈ H, e.DecExact) ?_ ?_
  · exact ⟨rfl, by simp⟩
  · rintro H es s s' a ⟨hcounts, hdec⟩ - hstep
    obtain ⟨hcounts', hnew⟩ := hcounts.transition (step_transition hstep)
    refine ⟨hcounts', ?_⟩
    intro e he
    rcases List.mem_append.mp he with hold | hes
    · exact hdec e hold
    · exact hnew e hes

/-! ## Unloading -/

/-- `S_OK` is answered exactly when no carrier is alive and no server lock is
outstanding. -/
def Event.UnloadSound : Event → Prop
  | .canUnloadReturned hr alive locked =>
      hr = HResult.sOk ↔ alive = 0 ∧ locked = false
  | _ => True

/-- When the probe is right: a server lock is outstanding only while some
carrier is alive, and the number of live carriers has not wrapped the counter
to zero. -/
def UnloadAgrees (s : Server) : Action → Prop
  | .canUnloadNow =>
      (s.carriers.live = 0 → s.locked = false) ∧
        (s.carriers.live % 2 ^ 32 = 0 → s.carriers.live = 0)
  | _ => True

theorem Counts.canUnload_iff (h : Counts s) :
    s.dllCanUnloadNowDispatch = HResult.sOk ↔
      s.carriers.live % 2 ^ 32 = 0 := by
  have hzero : s.outstanding = 0 ↔ s.carriers.live % 2 ^ 32 = 0 := by
    rw [h, ← UInt32.toNat_inj, UInt32.toNat_ofNat']
    rfl
  rw [Server.dllCanUnloadNowDispatch, Server.outstandingCount, ← hzero]
  by_cases hcount : s.outstanding = 0
  · simp [hcount]
  · simp only [hcount, if_false, iff_false]
    decide

theorem releaseCarrier_unloadSound (s : Server) (place : ℕ) :
    ∀ e ∈ (s.releaseCarrier place).2, e.UnloadSound := by
  unfold Server.releaseCarrier
  split <;> simp [Event.UnloadSound]

theorem CreateOutcome.unloadSound {self : ApoClassFactory}
    {riid : Option Guid} {ppvObject : Option Slot}
    {called : Called (Except ComError Unit)}
    (h : CreateOutcome com s self riid ppvObject called) :
    ∀ e ∈ called.events, e.UnloadSound := by
  cases h with
  | refused _ _ _ _ hevents => simp [hevents]
  | queried _ _ _ _ hevents => simp [hevents]
  | notQueried _ _ _ _ hevents =>
      rw [hevents]
      exact releaseCarrier_unloadSound _ _

/-- The runs in which `DllCanUnloadNow` answers as the server locks demand are
exactly the runs that probe only states where it agrees. -/
theorem run_unloadAgrees_iff (com : ComLibrary)
    (registry : Kind → List ApoVTable) (H : List Event) (s : Server) :
    (machine com registry).Run UnloadAgrees H s ↔
      (machine com registry).Reaches H s ∧ ∀ e ∈ H, e.UnloadSound := by
  apply Machine.run_iff_reaches
  intro H es s s' a hreach hstep
  have hcounts := (counts_of_reaches hreach).1
  cases step_transition hstep with
  | canUnloadNow =>
      simp only [List.mem_singleton, forall_eq, Event.UnloadSound, UnloadAgrees,
        hcounts.canUnload_iff]
      constructor
      · intro hsound
        constructor
        · intro hnone
          exact (hsound.mp (by rw [hnone, Nat.zero_mod])).2
        · intro hwrapped
          exact (hsound.mp hwrapped).1
      · rintro ⟨hlocked, hwrapped⟩
        constructor
        · intro hzero
          exact ⟨hwrapped hzero, hlocked (hwrapped hzero)⟩
        · rintro ⟨hnone, -⟩
          rw [hnone, Nat.zero_mod]
  | classObject kind rclsid riid ppv called hcalled =>
      obtain ⟨-, -, -, hevents⟩ :=
        s.dllGetClassObjectDispatch_frame com kind rclsid riid ppv (registry kind)
      rw [← hcalled] at hevents
      simp [hevents, UnloadAgrees]
  | create factory self punkOuter riid ppvObject called hlive houtcome =>
      exact iff_of_true houtcome.unloadSound trivial
  | releaseCarrier place carrier hlive =>
      exact iff_of_true (releaseCarrier_unloadSound s place) trivial
  | lockServer => simp [UnloadAgrees]
  | addRefFactory => simp [UnloadAgrees]
  | addRefCarrier => simp [UnloadAgrees]
  | releaseFactory => simp [UnloadAgrees]
  | invoke => simp [UnloadAgrees]

/-- A `windows_core` whose objects answer every query. -/
def answeringCom : ComLibrary where
  query _ _ _ := (HResult.sOk, .interface)

/-- One factory for the test fixture on either path. -/
def passthroughRegistry : Kind → List ApoVTable :=
  fun _ => [registerApo passthrough]

/-- A factory is obtained and locked with `LockServer(TRUE)`; no instance is
created, and `DllCanUnloadNow` answers `S_OK`. -/
theorem unload_under_server_lock :
    ∃ H s, (machine answeringCom passthroughRegistry).Reaches H s ∧
      .canUnloadReturned HResult.sOk 0 true ∈ H ∧
      ¬ ∀ e ∈ H, e.UnloadSound := by
  have hreach : (machine answeringCom passthroughRegistry).Reaches _ _ :=
    Machine.reaches_of_exec
      [.getClassObject .siso (some passthrough.clsid.toGuid)
          (some passthrough.clsid.toGuid) (some none),
        .lockServer 0 true, .canUnloadNow]
      rfl
  refine ⟨_, _, hreach, List.mem_of_getElem? (i := 0) rfl, ?_⟩
  intro hsound
  have hlocked : Event.UnloadSound (.canUnloadReturned HResult.sOk 0 true) :=
    hsound _ (List.mem_of_getElem? (i := 0) rfl)
  exact absurd (hlocked.mp rfl).2 (by decide)

end TympanApo.ComServer
