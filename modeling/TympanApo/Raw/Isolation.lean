import TympanApo.Raw.Carriers

/-!
# Objects side by side

One DLL serves any number of objects at once, and its clients interleave their
calls as they like.  Each object is nevertheless in the state, and has run the
hooks, that the calls made through its own carrier give when they are made on a
new instance with nothing else around.
-/

namespace TympanApo.ComServer

open TympanApo.Support

variable {com : ComLibrary} {registry : Kind → List ApoVTable}
    {s s' : Server} {a : Action} {es : List Event}
    {carrier : ApoInstanceCom} {call : Lifecycle.Call}

/-- The method call an action makes through the carrier at a place. -/
def callOn (place : ℕ) : Action → Option Lifecycle.Call
  | .invoke carrier call => if carrier = place then some call else none
  | _ => none

/-- The calls made through the carrier at a place, in order. -/
def callsOn (place : ℕ) (as : List Action) : List Lifecycle.Call :=
  as.filterMap (callOn place)

theorem callsOn_concat_of_none {place : ℕ} (as : List Action)
    (h : callOn place a = none) : callsOn place (as ++ [a]) = callsOn place as := by
  rw [callsOn, List.filterMap_append, List.filterMap_cons_none h,
    List.filterMap_nil, List.append_nil]
  rfl

theorem callsOn_concat_invoke (place : ℕ) (as : List Action)
    (call : Lifecycle.Call) :
    callsOn place (as ++ [.invoke place call]) = callsOn place as ++ [call] := by
  have hcall : callOn place (.invoke place call) = some call := if_pos rfl
  rw [callsOn, List.filterMap_append, List.filterMap_cons_some hcall]
  rfl

theorem callsOn_concat_invoke_ne {place place' : ℕ} (hne : place ≠ place')
    (as : List Action) (call : Lifecycle.Call) :
    callsOn place' (as ++ [.invoke place call]) = callsOn place' as := by
  apply callsOn_concat_of_none
  exact if_neg hne

theorem callOn_of_not_invoke {place : ℕ}
    (h : ∀ carrier call, a ≠ .invoke carrier call) : callOn place a = none := by
  cases a with
  | invoke carrier call => exact absurd rfl (h carrier call)
  | getClassObject => rfl
  | createInstance => rfl
  | lockServer => rfl
  | addRef => rfl
  | release => rfl
  | canUnloadNow => rfl

/-! ## What a call leaves alone -/

/-- A call that is not made through a carrier may add one, around a new
instance, and leaves the carriers and instances there are. -/
structure Grows (s s' : Server) : Prop where
  carriers : ∃ fresh, s'.carriers.values = s.carriers.values ++ fresh ∧
    ∀ c ∈ fresh, ∃ any, s'.instances[c.arc]? = some any ∧
      any.inst = ApoInstance.new any.T
  instances : s.instances <+: s'.instances

theorem Grows.of_eq (hcarriers : s'.carriers.values = s.carriers.values)
    (hinstances : s'.instances = s.instances) : Grows s s' where
  carriers := ⟨[], by rw [hcarriers, List.append_nil], fun c hc => nomatch hc⟩
  instances := ⟨[], by rw [hinstances, List.append_nil]⟩

theorem Grows.createCarrier {self : ApoClassFactory}
    (h : self.vtable.Emitted) (s : Server) :
    Grows s (s.createCarrier self) := by
  obtain ⟨σ, T, hcreated⟩ := h.createCarrier s
  rw [hcreated]
  constructor
  · refine ⟨[{ kind := self.kind, arc := s.instances.length }],
      Pool.values_alloc _ _, ?_⟩
    intro c hc
    obtain rfl := List.mem_singleton.mp hc
    exact ⟨{ T, inst := ApoInstance.new T }, List.getElem?_concat_length, rfl⟩
  · exact List.prefix_append _ _

theorem Grows.releaseCarrier (h : Grows s s') (place : ℕ) :
    Grows s (s'.releaseCarrier place).1 := by
  obtain ⟨hcarriers, hinstances, -⟩ := s'.releaseCarrier_frame place
  constructor
  · rw [hcarriers, hinstances]
    exact h.carriers
  · rw [hinstances]
    exact h.instances

theorem Grows.create {self : ApoClassFactory} {riid : Option Guid}
    {ppvObject : Option Slot} {called : Called (Except ComError Unit)}
    (hemitted : self.vtable.Emitted)
    (houtcome : CreateOutcome com s self riid ppvObject called) :
    Grows s called.server := by
  cases houtcome with
  | refused _ _ _ hserver _ =>
      rw [hserver]
      exact Grows.of_eq rfl rfl
  | queried _ _ _ hserver _ =>
      rw [hserver]
      exact Grows.createCarrier hemitted s
  | notQueried _ _ _ hserver _ =>
      rw [hserver]
      exact (Grows.createCarrier hemitted s).releaseCarrier _

theorem grows_of_transition (howned : Owned registry s)
    (hregistry : ∀ kind, ∀ v ∈ registry kind, v.Emitted)
    (h : Transition com registry s a s' es)
    (hother : ∀ carrier call, a ≠ .invoke carrier call) : Grows s s' := by
  cases h with
  | classObject kind rclsid riid ppv called hcalled =>
      obtain ⟨-, hcarriers, hinstances, -⟩ :=
        s.dllGetClassObjectDispatch_frame com kind rclsid riid ppv (registry kind)
      rw [← hcalled] at hcarriers hinstances
      exact Grows.of_eq (congrArg Pool.values hcarriers) hinstances
  | create factory self punkOuter riid ppvObject called hlive houtcome =>
      exact Grows.create (howned.emitted hregistry hlive) houtcome
  | addRefCarrier place carrier hlive =>
      exact Grows.of_eq (Pool.values_addRef _ _) rfl
  | releaseCarrier place carrier hlive =>
      exact (Grows.of_eq rfl rfl).releaseCarrier place
  | invoke place carrier call hlive => exact absurd rfl (hother place call)
  | lockServer => exact Grows.of_eq rfl rfl
  | addRefFactory => exact Grows.of_eq rfl rfl
  | releaseFactory => exact Grows.of_eq rfl rfl
  | canUnloadNow => exact Grows.of_eq rfl rfl

/-! ## Every run -/

/-- The instance of a carrier is where its own calls lead on their own. -/
def ActsAlone (as : List Action) (s : Server) (place : ℕ)
    (c : ApoInstanceCom) : Prop :=
  ∃ any K, s.instances[c.arc]? = some any ∧
    (Lifecycle.machine any.T).exec (callsOn place as) = some (K, any.inst)

/-- What a run keeps about all carriers there ever were. -/
structure Isolated (registry : Kind → List ApoVTable) (as : List Action)
    (s : Server) : Prop where
  owned : Owned registry s
  alone : ∀ place c, s.carriers.values[place]? = some c →
    ActsAlone as s place c
  silent : ∀ place, s.carriers.values.length ≤ place → callsOn place as = []

theorem Isolated.grows {as : List Action} (h : Isolated registry as s)
    (howned : Owned registry s') (hgrows : Grows s s')
    (hother : ∀ carrier call, a ≠ .invoke carrier call) :
    Isolated registry (as ++ [a]) s' := by
  have hcalls : ∀ place, callsOn place (as ++ [a]) = callsOn place as :=
    fun place => callsOn_concat_of_none as (callOn_of_not_invoke hother)
  obtain ⟨fresh, hcarriers, hfresh⟩ := hgrows.carriers
  refine ⟨howned, ?_, ?_⟩
  · intro place c hc
    rw [ActsAlone, hcalls]
    by_cases hold : place < s.carriers.values.length
    · rw [hcarriers, List.getElem?_append_left hold] at hc
      obtain ⟨any, K, hany, hexec⟩ := h.alone place c hc
      obtain ⟨later, hinstances⟩ := hgrows.instances
      have hplaced : c.arc < s.instances.length :=
        (List.getElem?_eq_some_iff.mp hany).1
      refine ⟨any, K, ?_, hexec⟩
      rw [← hinstances, List.getElem?_append_left hplaced]
      exact hany
    · rw [Nat.not_lt] at hold
      rw [hcarriers, List.getElem?_append_right hold] at hc
      obtain ⟨any, hany, hnew⟩ := hfresh c (List.mem_of_getElem? hc)
      refine ⟨any, [], hany, ?_⟩
      rw [h.silent place hold, hnew]
      rfl
  · intro place hplace
    rw [hcalls]
    apply h.silent
    rw [hcarriers, List.length_append] at hplace
    exact (Nat.le_add_right _ _).trans hplace

/-- No two carriers there ever were share an instance. -/
theorem Separate.arc_ne_of_values (h : Separate s) {i j : ℕ}
    {c d : ApoInstanceCom} (hc : s.carriers.values[i]? = some c)
    (hd : s.carriers.values[j]? = some d) (hij : i ≠ j) : c.arc ≠ d.arc := by
  intro harc
  have hci : (s.carriers.values.map ApoInstanceCom.arc)[i]? = some c.arc := by
    rw [List.getElem?_map, hc, Option.map_some]
  have hdj : (s.carriers.values.map ApoInstanceCom.arc)[j]? = some c.arc := by
    rw [List.getElem?_map, hd, Option.map_some, harc]
  obtain ⟨hlt, -⟩ := List.getElem?_eq_some_iff.mp hci
  exact hij ((List.getElem?_inj hlt h.nodup).mp (hci.trans hdj.symm))

/-- A call through the carrier at a place moves its instance alone. -/
theorem Isolated.invoke {as : List Action} (h : Isolated registry as s)
    (howned : Owned registry (s.invoke carrier call))
    {place : ℕ} (hlive : s.carriers.get? place = some carrier) :
    Isolated registry (as ++ [.invoke place call]) (s.invoke carrier call) := by
  refine ⟨howned, ?_, ?_⟩
  · intro place' c hc
    obtain ⟨any, K, hany, hexec⟩ := h.alone place' c hc
    by_cases hplace : place = place'
    · obtain rfl := hplace
      obtain rfl : carrier = c :=
        Option.some.inj ((Pool.values_of_get? hlive).symm.trans hc)
      refine ⟨{ T := any.T
                inst := (Lifecycle.perform any.T any.inst call).inst },
        K ++ Lifecycle.events call (Lifecycle.perform any.T any.inst call),
        ?_, ?_⟩
      · simp only [Server.invoke, List.getElem?_modify_eq, hany]
        rfl
      · rw [callsOn_concat_invoke]
        exact Machine.execFrom_concat hexec rfl
    · have harcs : carrier.arc ≠ c.arc := h.owned.separate.arc_ne_of_values
        (Pool.values_of_get? hlive) hc hplace
      refine ⟨any, K, ?_, ?_⟩
      · rw [Server.invoke, List.getElem?_modify_ne _ _ harcs]
        exact hany
      · rw [callsOn_concat_invoke_ne hplace]
        exact hexec
  · intro place' hplace
    have hlt : place < s.carriers.values.length :=
      (List.getElem?_eq_some_iff.mp (Pool.values_of_get? hlive)).1
    have hne : place ≠ place' := Nat.ne_of_lt (hlt.trans_le hplace)
    rw [callsOn_concat_invoke_ne hne]
    exact h.silent place' hplace

theorem Isolated.step {as : List Action} (h : Isolated registry as s)
    (hregistry : ∀ kind, ∀ v ∈ registry kind, v.Emitted)
    (hstep : step com registry s a = some (s', es)) :
    Isolated registry (as ++ [a]) s' := by
  have htransition := step_transition hstep
  have howned := h.owned.transition hregistry htransition
  by_cases hinvoke : ∃ place call, a = .invoke place call
  · obtain ⟨place, call, rfl⟩ := hinvoke
    cases htransition with
    | invoke _ carrier _ hlive => exact h.invoke howned hlive
  · have hother : ∀ place call, a ≠ .invoke place call :=
      fun place call ha => hinvoke ⟨place, call, ha⟩
    exact h.grows howned
      (grows_of_transition h.owned hregistry htransition hother) hother

theorem isolated_of_exec (hregistry : ∀ kind, ∀ v ∈ registry kind, v.Emitted)
    {as : List Action} {H : List Event}
    (hexec : (machine com registry).exec as = some (H, s)) :
    Isolated registry as s := by
  refine Machine.exec_invariant (I := fun as s => Isolated registry as s) ?_
    (fun h hstep => h.step hregistry hstep) hexec
  have hstart : (machine com registry).Reaches [] Server.loaded :=
    Machine.Run.start
  refine ⟨owned_of_reaches hregistry hstart, ?_, ?_⟩
  · intro place c hc
    cases hc
  · intro place _
    rfl

/-- For every sequence of calls of any number of clients, the object behind a
live carrier is in the state that the calls made through that carrier lead to
on a new instance, with nothing else around; its hooks keep to sessions. -/
theorem acts_alone_of_exec
    (hregistry : ∀ kind, ∀ v ∈ registry kind, v.Emitted) {as : List Action}
    {H : List Event} (hexec : (machine com registry).exec as = some (H, s))
    {place : ℕ} (hlive : s.carriers.get? place = some carrier) :
    ∃ (any : AnyApoInstance) (K : List Lifecycle.Event),
      s.instances[carrier.arc]? = some any ∧
      (Lifecycle.machine any.T).exec (callsOn place as) = some (K, any.inst) ∧
      Justified Lifecycle.HookAllowed K := by
  obtain ⟨any, K, hany, halone⟩ := (isolated_of_exec hregistry hexec).alone
    place carrier (Pool.values_of_get? hlive)
  refine ⟨any, K, hany, halone, ?_⟩
  obtain ⟨phase, hpath, -⟩ :=
    Lifecycle.tracks_of_reaches (Machine.reaches_of_exec _ halone)
  intro H₁ e H₂ hK
  have hallowed := (Session.explains_of_path hpath).2.of_filterMap
  exact Lifecycle.hookAllowed_of_session (hallowed H₁ e H₂ hK)

/-- Two objects, the second locked while the first is being initialised. -/
theorem acts_alone_two_carriers :
    ∃ (any : AnyApoInstance) (K : List Lifecycle.Event),
      (Lifecycle.machine any.T).exec
        [.initializeInstance,
          .lockForProcess (.pcmFloat32 48000 2) (.pcmFloat32 48000 2)] =
        some (K, any.inst) ∧
      Justified Lifecycle.HookAllowed K := by
  have hexec : ∃ H s, (machine answeringCom passthroughRegistry).exec
      [.getClassObject .siso (some passthrough.clsid.toGuid)
          (some passthrough.clsid.toGuid) (some none),
        .createInstance 0 none (some passthrough.clsid.toGuid) (some none),
        .createInstance 0 none (some passthrough.clsid.toGuid) (some none),
        .invoke 1 .initializeInstance, .invoke 0 .initializeInstance,
        .invoke 1 (.lockForProcess (.pcmFloat32 48000 2)
          (.pcmFloat32 48000 2)), .release (.carrier 0)] = some (H, s) ∧
      s.carriers.get? 1 = some { kind := .siso, arc := 1 } :=
    ⟨_, _, rfl, rfl⟩
  obtain ⟨H, s, hexec, hlive⟩ := hexec
  obtain ⟨any, K, -, halone, hallowed⟩ :=
    acts_alone_of_exec passthroughRegistry_emitted hexec hlive
  exact ⟨any, K, halone, hallowed⟩

end TympanApo.ComServer
