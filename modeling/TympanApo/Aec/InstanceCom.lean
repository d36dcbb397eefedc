import TympanApo.Raw.AecDispatch
import TympanApo.Raw.InstanceCom

/-!
# The methods of an echo canceller's carrier

`aec/instance_com.rs`: the methods of the plain carrier, which are its own, and
those of the auxiliary input.  Whatever the user's auxiliary hooks do, they
move neither the lifecycle nor the locked formats, so the two realtime methods
keep to the sessions that `LockForProcess` opens.  With the default hooks an
echo canceller is the plain object, with the auxiliary traffic left out.
-/

namespace TympanApo.AecInstanceCom

open TympanApo.Dispatch
open TympanApo.InstanceCom (Advertises Method Reply)
open TympanApo.RegProperties (InterfaceIds aecSupportedInterfaces)
open TympanApo.Support

/-! ## Methods -/

/-- A method of the carrier with its arguments. -/
inductive AecMethod
  | shared (method : Method)
  | addAuxiliaryInput (dwinputid cbdatasize : UInt32)
      (pbydata : Option (ℕ → UInt8))
      (pinputconnection : Option ConnectionDescriptor)
  | removeAuxiliaryInput (dwinputid : UInt32)
  /-- `IApoAuxiliaryInputConfiguration::IsInputFormatSupported`. -/
  | isAuxFormatSupported (prequestedinputformat : Option MediaType)
  | acceptInput (dwinputid : UInt32)
      (pinputconnection : Option ConnectionProperty)

/-- A hook of the trait or of the extension. -/
inductive AecHook
  | main (h : HookCall)
  | aux (h : AecHookCall)

/-- What a method returns; `AcceptInput` returns nothing. -/
inductive AecReply
  | shared (reply : Reply)
  | nothing

/-- What a method call does. -/
structure Called (σ : Type) where
  inst : AecApoInstance σ
  hooks : List AecHook
  reply : AecReply

variable {σ : Type}

/-- A call of a method of the auxiliary input. -/
def ofAux {ρ : Type} (reply : ρ → AecReply) (e : AecEffect σ ρ) : Called σ where
  inst := e.inst
  hooks := e.hooks.map .aux
  reply := reply e.answer

/-- The methods of `AecApoInstanceCom`. -/
def invoke (interfaces : List Guid) (T : AecProcessingObject σ)
    (self : AecApoInstance σ) : AecMethod → Called σ
  | .shared method =>
      let e := InstanceCom.invoke interfaces T.toProcessingObject self.inner
        method
      { inst := { inner := e.inst }
        hooks := e.hooks.map .main
        reply := .shared e.answer }
  | .addAuxiliaryInput id size data connection =>
      ofAux (fun r => .shared (.result r))
        (aecAddAuxiliaryInput T self id size data connection)
  | .removeAuxiliaryInput id =>
      ofAux (fun _ => .shared (.result (.ok ()))) (self.removeAuxInput T id)
  | .isAuxFormatSupported requested =>
      ofAux (fun r => .shared (.mediaType r))
        (aecIsAuxFormatSupported T self requested)
  | .acceptInput id connection =>
      ofAux (fun _ => .nothing) (aecAcceptInput T self id connection)

/-- One call: the method, the hooks it ran, in order, and the reply. -/
structure AecExchange where
  method : AecMethod
  hooks : List AecHook
  reply : AecReply

/-- Any number of method calls on a new carrier, one after the other. -/
def machine (interfaces : List Guid) (T : AecProcessingObject σ) :
    Machine (AecApoInstance σ) AecMethod AecExchange where
  init := AecApoInstance.new T
  step self method :=
    let c := invoke interfaces T self method
    some (c.inst, [{ method, hooks := c.hooks, reply := c.reply }])

/-- `AecApoInstanceCom`. -/
def aecApoInstanceCom (iids : InterfaceIds) (T : AecProcessingObject σ) :
    Machine (AecApoInstance σ) AecMethod AecExchange :=
  machine (aecSupportedInterfaces iids) T

variable {T : AecProcessingObject σ} {self : AecApoInstance σ}

/-- In every run `AecApoInstanceCom` advertises its class and nine
interfaces. -/
theorem aecApoInstanceCom_advertises {iids : InterfaceIds}
    {H : List AecExchange} (h : (aecApoInstanceCom iids T).Reaches H self) :
    ∀ e ∈ H, ∀ alloc, e.method = .shared (.getRegistrationProperties alloc) →
      ∃ reply, e.reply = .shared reply ∧
        Advertises (aecSupportedInterfaces iids) T.toProcessingObject alloc
          reply := by
  refine h.forall_mem (P := fun e => ∀ alloc,
    e.method = .shared (.getRegistrationProperties alloc) →
      ∃ reply, e.reply = .shared reply ∧
        Advertises (aecSupportedInterfaces iids) T.toProcessingObject alloc
          reply) ?_
  intro H es s s' method _ _ hstep e he
  obtain ⟨-, rfl⟩ := Prod.mk.inj (Option.some.inj hstep)
  obtain rfl := List.mem_singleton.mp he
  rintro alloc rfl
  refine ⟨_, rfl, ?_⟩
  exact InstanceCom.advertises_invoke (by simp) T.toProcessingObject s.inner
    alloc

/-! ## Auxiliary calls -/

/-- The auxiliary hooks see the user's object alone. -/
def SameLifecycle (self self' : AecApoInstance σ) : Prop :=
  self'.inner.state = self.inner.state ∧
    self'.inner.lockedFormatsCell = self.inner.lockedFormatsCell

theorem addAuxiliaryInput_sameLifecycle (T : AecProcessingObject σ)
    (self : AecApoInstance σ) (id size : UInt32)
    (data : Option (ℕ → UInt8)) (connection : Option ConnectionDescriptor) :
    SameLifecycle self
      (aecAddAuxiliaryInput T self id size data connection).inst := by
  unfold aecAddAuxiliaryInput
  split <;> exact ⟨rfl, rfl⟩

theorem isAuxFormatSupported_sameLifecycle (T : AecProcessingObject σ)
    (self : AecApoInstance σ) (requested : Option MediaType) :
    SameLifecycle self (aecIsAuxFormatSupported T self requested).inst := by
  unfold aecIsAuxFormatSupported
  split <;> exact ⟨rfl, rfl⟩

theorem acceptInput_sameLifecycle (T : AecProcessingObject σ)
    (self : AecApoInstance σ) (id : UInt32)
    (connection : Option ConnectionProperty) :
    SameLifecycle self (aecAcceptInput T self id connection).inst := by
  by_cases haccepted : ∃ prop formats len,
      Accepted self.inner connection prop formats len
  · obtain ⟨prop, formats, len, haccepted⟩ := haccepted
    rw [aecAcceptInput_of_accepted T id haccepted]
    exact ⟨rfl, rfl⟩
  · rw [aecAcceptInput_of_not_accepted T id fun prop formats len h =>
      haccepted ⟨prop, formats, len, h⟩]
    exact ⟨rfl, rfl⟩

/-! ## Sessions -/

/-- What a hook does to the session protocol: the two realtime hooks use what
a lock acquired. -/
def hookOp : AecHook → Option (Session.Op LockedFormats)
  | .main h => InstanceCom.hookOp h
  | .aux (.acceptAuxInput _) => some .use
  | .aux _ => none

/-- Whether a call started the instance, by its reply. -/
def started : AecMethod → AecReply → Option (Session.Op LockedFormats)
  | .shared method, .shared reply => InstanceCom.started method reply
  | _, _ => none

/-- What a call does to the session protocol. -/
def sessionOps (x : AecExchange) : List (Session.Op LockedFormats) :=
  x.hooks.filterMap hookOp ++ (started x.method x.reply).toList

/-- What a run does to the session protocol. -/
def sessions (H : List AecExchange) : List (Session.Op LockedFormats) :=
  H.flatMap sessionOps

/-- The session after a call, by its reply. -/
def sessionAfter (session : Option LockedFormats) (x : AecExchange) :
    Option LockedFormats :=
  match x.method, x.reply with
  | .shared method, .shared reply =>
      InstanceCom.sessionAfter session method reply
  | _, _ => session

/-- The formats of the session open after a run, read off its replies. -/
def openSession (H : List AecExchange) : Option LockedFormats :=
  H.foldl sessionAfter none

/-- Calls on an instance follow the protocol from any state it tracks. -/
theorem tracks_execFrom {T : ProcessingObject σ} {inst inst' : ApoInstance σ}
    {phase : Session.Phase LockedFormats} {cs : List Lifecycle.Call}
    {K H : List Lifecycle.Event} (h : Lifecycle.Tracks inst phase)
    (hexec : (Lifecycle.machine T).execFrom cs K inst = some (H, inst')) :
    ∃ K' phase', H = K ++ K' ∧
      Path Session.Step phase (K'.filterMap Lifecycle.sessionOp) phase' ∧
      Lifecycle.Tracks inst' phase' := by
  induction cs generalizing K inst phase with
  | nil =>
      obtain ⟨rfl, rfl⟩ := Prod.mk.inj (Option.some.inj hexec)
      exact ⟨[], phase, (List.append_nil K).symm, Path.nil phase, h⟩
  | cons call cs ih =>
      obtain ⟨phase₁, hpath₁, h₁⟩ :=
        h.outcome (Lifecycle.perform_outcome (T := T) call)
      obtain ⟨K', phase', rfl, hpath, h'⟩ := ih h₁ hexec
      refine ⟨_, phase', List.append_assoc _ _ _, ?_, h'⟩
      rw [List.filterMap_append]
      exact hpath₁.append hpath

theorem shared_tracks (interfaces : List Guid) (method : Method)
    {phase : Session.Phase LockedFormats}
    (h : Lifecycle.Tracks self.inner phase) :
    let c := invoke interfaces T self (.shared method)
    ∃ phase', Path Session.Step phase
        (sessionOps { method := .shared method
                      hooks := c.hooks
                      reply := c.reply }) phase' ∧
      Lifecycle.Tracks c.inst.inner phase' := by
  obtain ⟨cs, hcalls⟩ := InstanceCom.invoke_comesDownTo interfaces
    T.toProcessingObject self.inner method
  obtain ⟨K, hexec, hamounts⟩ := hcalls []
  obtain ⟨K', phase', hK, hpath, h'⟩ := tracks_execFrom h hexec
  obtain rfl := List.append_cancel_left hK
  refine ⟨phase', ?_, h'⟩
  rw [hamounts.ops] at hpath
  simpa [sessionOps, invoke, InstanceCom.sessionOps, started,
    List.filterMap_map, Function.comp_def, hookOp] using hpath

/-- Hooks that are not realtime hooks take no part in the protocol. -/
theorem addAuxiliaryInput_hookOp (id size : UInt32)
    (data : Option (ℕ → UInt8)) (connection : Option ConnectionDescriptor) :
    ((aecAddAuxiliaryInput T self id size data connection).hooks.map
      .aux).filterMap hookOp = [] := by
  unfold aecAddAuxiliaryInput
  split <;> rfl

theorem isAuxFormatSupported_hookOp (requested : Option MediaType) :
    ((aecIsAuxFormatSupported T self requested).hooks.map .aux).filterMap
      hookOp = [] := by
  unfold aecIsAuxFormatSupported
  split <;> rfl

theorem acceptInput_path (id : UInt32)
    (connection : Option ConnectionProperty)
    {phase : Session.Phase LockedFormats}
    (h : Lifecycle.Tracks self.inner phase) :
    Path Session.Step phase
      (((aecAcceptInput T self id connection).hooks.map .aux).filterMap
        hookOp) phase := by
  by_cases haccepted : ∃ prop formats len,
      Accepted self.inner connection prop formats len
  · obtain ⟨prop, formats, len, haccepted⟩ := haccepted
    rw [aecAcceptInput_of_accepted T id haccepted]
    have hload := ApoInstance.load_of_lockedFormats haccepted.formats_eq
    obtain ⟨held, rfl, -⟩ := h.eq_held hload
    exact Path.single (.use held)
  · rw [aecAcceptInput_of_not_accepted T id fun prop formats len h =>
      haccepted ⟨prop, formats, len, h⟩]
    exact Path.nil phase

/-- A method of the auxiliary input starts nothing. -/
theorem sessionOps_aux {method : AecMethod} {hooks : List AecHook}
    {reply : AecReply} (h : started method reply = none) :
    sessionOps { method, hooks, reply } = hooks.filterMap hookOp := by
  rw [sessionOps, h]
  exact List.append_nil _

/-- Every method follows the session protocol. -/
theorem invoke_tracks (interfaces : List Guid) (method : AecMethod)
    {phase : Session.Phase LockedFormats}
    (h : Lifecycle.Tracks self.inner phase) :
    let c := invoke interfaces T self method
    ∃ phase', Path Session.Step phase
        (sessionOps { method, hooks := c.hooks, reply := c.reply }) phase' ∧
      Lifecycle.Tracks c.inst.inner phase' := by
  cases method with
  | shared method => exact shared_tracks interfaces method h
  | addAuxiliaryInput id size data connection =>
      obtain ⟨hstate, hcell⟩ :=
        addAuxiliaryInput_sameLifecycle T self id size data connection
      refine ⟨phase, ?_, h.of_eq hstate hcell⟩
      rw [sessionOps_aux rfl]
      simp only [invoke, ofAux, addAuxiliaryInput_hookOp]
      exact Path.nil phase
  | removeAuxiliaryInput id =>
      exact ⟨phase, Path.nil phase, h.of_eq rfl rfl⟩
  | isAuxFormatSupported requested =>
      obtain ⟨hstate, hcell⟩ :=
        isAuxFormatSupported_sameLifecycle T self requested
      refine ⟨phase, ?_, h.of_eq hstate hcell⟩
      rw [sessionOps_aux rfl]
      simp only [invoke, ofAux, isAuxFormatSupported_hookOp]
      exact Path.nil phase
  | acceptInput id connection =>
      obtain ⟨hstate, hcell⟩ := acceptInput_sameLifecycle T self id connection
      refine ⟨phase, ?_, h.of_eq hstate hcell⟩
      rw [sessionOps_aux rfl]
      exact acceptInput_path id connection h

/-- An echo canceller refines the session protocol, auxiliary traffic
included. -/
theorem tracks_of_reaches {interfaces : List Guid} {H : List AecExchange}
    (h : (machine interfaces T).Reaches H self) :
    ∃ phase, Path Session.Step .fresh (sessions H) phase ∧
      Lifecycle.Tracks self.inner phase := by
  refine h.invariant (I := fun H s => ∃ phase,
    Path Session.Step .fresh (sessions H) phase ∧
      Lifecycle.Tracks s.inner phase) ?_ ?_
  · exact ⟨.fresh, Path.nil Session.Phase.fresh, Lifecycle.tracks_new⟩
  · rintro H es s s' method ⟨phase, hpath, htracks⟩ - hstep
    obtain ⟨rfl, rfl⟩ := Prod.mk.inj (Option.some.inj hstep)
    obtain ⟨phase', hpath', htracks'⟩ :=
      invoke_tracks (T := T) interfaces method htracks
    refine ⟨phase', ?_, htracks'⟩
    rw [sessions, List.flatMap_append, List.flatMap_singleton]
    exact hpath.append hpath'

theorem openSession_concat (H : List AecExchange) (x : AecExchange) :
    openSession (H ++ [x]) = sessionAfter (openSession H) x := by
  rw [openSession, List.foldl_append]
  rfl

theorem lockedFormats_invoke (interfaces : List Guid) (method : AecMethod) :
    let c := invoke interfaces T self method
    c.inst.inner.lockedFormats = sessionAfter self.inner.lockedFormats
      { method, hooks := c.hooks, reply := c.reply } := by
  cases method with
  | shared method => exact InstanceCom.lockedFormats_invoke _ _ _ _
  | addAuxiliaryInput id size data connection =>
      obtain ⟨hstate, hcell⟩ :=
        addAuxiliaryInput_sameLifecycle T self id size data connection
      exact InstanceCom.lockedFormats_congr hstate hcell
  | removeAuxiliaryInput id => rfl
  | isAuxFormatSupported requested =>
      obtain ⟨hstate, hcell⟩ :=
        isAuxFormatSupported_sameLifecycle T self requested
      exact InstanceCom.lockedFormats_congr hstate hcell
  | acceptInput id connection =>
      obtain ⟨hstate, hcell⟩ := acceptInput_sameLifecycle T self id connection
      exact InstanceCom.lockedFormats_congr hstate hcell

/-- After every run the replies tell which formats are locked. -/
theorem lockedFormats_of_reaches {interfaces : List Guid}
    {H : List AecExchange} (h : (machine interfaces T).Reaches H self) :
    self.inner.lockedFormats = openSession H := by
  refine h.invariant (I := fun H s => s.inner.lockedFormats = openSession H)
    ?_ ?_
  · apply ApoInstance.lockedFormats_of_ne
    rw [machine, AecApoInstance.new, ApoInstance.new,
      Realtime.StateCell.load_new]
    decide
  · intro H es s s' method hsession _ hstep
    obtain ⟨rfl, rfl⟩ := Prod.mk.inj (Option.some.inj hstep)
    rw [openSession_concat, ← hsession]
    exact lockedFormats_invoke interfaces method

/-! ## Realtime slices -/

/-- The slices a hook is handed. -/
def slices : AecHook → List Slice
  | .main (.process input output _) => [input.samples, output]
  | .aux (.acceptAuxInput input) => [input.samples]
  | _ => []

/-- The property whose frames a realtime method works on. -/
def realtimeInput : AecMethod → Option ConnectionProperty
  | .shared (.apoProcess _ (some (some inProp)) _ _) => some inProp
  | .acceptInput _ connection => connection
  | _ => none

/-- A slice holds one sample for each frame and each channel of the session's
input format, which is one of 32-bit floats. -/
structure Fits (session : Option LockedFormats)
    (input : Option ConnectionProperty) (s : Slice) : Prop where
  fits : ∃ formats prop, session = some formats ∧ input = some prop ∧
    passesFormatGate formats.input = true ∧
    s.len.toNat =
      prop.u32ValidFrameCount.toNat * formats.input.channels.toNat

/-- Every slice handed out by a call fits the session told by the replies. -/
def SlicesFit (H : List AecExchange) (x : AecExchange) : Prop :=
  ∀ h ∈ x.hooks, ∀ s ∈ slices h,
    Fits (openSession H) (realtimeInput x.method) s

theorem apoProcess_fits (T : ProcessingObject σ) (self : ApoInstance σ)
    (numIn numOut : UInt32) (ppIn ppOut : Connections) :
    ∀ h ∈ (apoProcess T self numIn ppIn numOut ppOut).hooks,
      ∀ s ∈ slices (.main h), Fits self.lockedFormats
        (realtimeInput (.shared (.apoProcess numIn ppIn numOut ppOut))) s := by
  by_cases hconnected : ∃ inProp outProp,
      Connected numIn ppIn numOut ppOut inProp outProp
  · obtain ⟨inProp, outProp, hconnected⟩ := hconnected
    rw [apoProcess_of_connected hconnected, hconnected.input]
    cases hformats : self.lockedFormats with
    | none => simp [Effect.map, processConnection, hformats]
    | some formats =>
        have hload := ApoInstance.load_of_lockedFormats hformats
        have hcell : self.lockedFormatsCell = some formats :=
          (ApoInstance.lockedFormats_of_locked hload).symm.trans hformats
        cases hgate : passesFormatGate formats.input with
        | false =>
            rw [processConnection_of_not_gate hload hcell hgate]
            simp [Effect.map]
        | true =>
            obtain ⟨len, hlen, heffect⟩ :=
              processConnection_of_gate (T := T) inProp outProp hload hcell
                hgate
            have hfits : ∀ addr, Fits (some formats) (some inProp)
                { addr, len } := fun _ =>
              ⟨formats, inProp, rfl, rfl, hgate, hlen⟩
            rw [heffect]
            simp [Effect.map, slices, realtimeInput, hfits]
  · rw [apoProcess_of_not_connected fun inProp outProp h =>
      hconnected ⟨inProp, outProp, h⟩]
    simp

theorem acceptInput_fits (id : UInt32)
    (connection : Option ConnectionProperty) :
    ∀ h ∈ (aecAcceptInput T self id connection).hooks,
      ∀ s ∈ slices (.aux h), Fits self.inner.lockedFormats connection s := by
  by_cases haccepted : ∃ prop formats len,
      Accepted self.inner connection prop formats len
  · obtain ⟨prop, formats, len, haccepted⟩ := haccepted
    rw [aecAcceptInput_of_accepted T id haccepted]
    have hvalue := toNat_of_checkedMul haccepted.size
    rw [UInt32.toNat_toUInt64, UInt16.toNat_toUInt64] at hvalue
    intro h hmem s hs
    obtain rfl := List.mem_singleton.mp hmem
    obtain rfl := List.mem_singleton.mp hs
    exact ⟨formats, prop, haccepted.formats_eq, haccepted.connection,
      haccepted.gate, hvalue⟩
  · rw [aecAcceptInput_of_not_accepted T id fun prop formats len h =>
      haccepted ⟨prop, formats, len, h⟩]
    simp

/-- A hook that is handed no slice. -/
def Sliceless (h : AecHook) : Prop :=
  slices h = []

theorem lockForProcess_sliceless (T : ProcessingObject σ)
    (self : ApoInstance σ) (numIn numOut : UInt32)
    (ppIn ppOut : Option (Option ConnectionDescriptor)) :
    ∀ h ∈ (Dispatch.lockForProcess T self numIn ppIn numOut ppOut).hooks,
      Sliceless (.main h) := by
  have houtcome := lockForProcess_outcome T self numIn ppIn numOut ppOut
  generalize Dispatch.lockForProcess T self numIn ppIn numOut ppOut = e
    at houtcome
  cases houtcome <;> simp [Sliceless, slices]

theorem unlockForProcess_sliceless (T : ProcessingObject σ)
    (self : ApoInstance σ) :
    ∀ h ∈ (Dispatch.unlockForProcess T self).hooks, Sliceless (.main h) := by
  rw [Dispatch.unlockForProcess]
  by_cases hload : self.state.load = .locked
  · rw [ApoInstance.unlockForProcess_of_locked hload]
    simp [Effect.map, Sliceless, slices]
  · rw [ApoInstance.unlockForProcess_of_ne hload]
    simp [Effect.map]

theorem negotiateFormat_sliceless (T : ProcessingObject σ)
    (self : ApoInstance σ) (requested : Option MediaType)
    (direction : NegotiationDirection) :
    ∀ h ∈ (negotiateFormat T self requested direction).hooks,
      Sliceless (.main h) := by
  unfold negotiateFormat
  split
  next => simp
  next =>
    cases direction <;>
      simp [Effect.map, formatDecision, ApoInstance.isInputFormatSupported,
        ApoInstance.isOutputFormatSupported, Sliceless, slices]

theorem listEffects_sliceless (name : String) (size : UInt64)
    (encode : SystemEffect → List UInt8) (alloc : CoTaskMemAlloc)
    (T : ProcessingObject σ) (self : ApoInstance σ) (out : OutParams) :
    ∀ h ∈ (listEffects name size encode alloc T self out).hooks,
      Sliceless (.main h) := by
  unfold listEffects
  split
  next => simp
  next => simp [ApoInstance.systemEffects, Sliceless, slices]

theorem setAudioSystemEffectState_sliceless (T : ProcessingObject σ)
    (self : ApoInstance σ) (effectid : Guid)
    (state : AudioSystemEffectState) :
    ∀ h ∈ (Dispatch.setAudioSystemEffectState T self effectid state).hooks,
      Sliceless (.main h) := by
  by_cases hreached : Known T self effectid ∧ crossState state ≠ none
  · obtain ⟨hknown, hstate⟩ := hreached
    obtain ⟨cross, hcross⟩ := Option.ne_none_iff_exists'.mp hstate
    rw [setAudioSystemEffectState_of_known hknown hcross]
    simp [Sliceless, slices]
  · rw [not_and_or, not_not] at hreached
    obtain ⟨err, -, hrefused⟩ := setAudioSystemEffectState_of_not hreached
    rw [hrefused]
    simp [Sliceless, slices]

/-- Every method hands out fitting slices only. -/
theorem shared_fits (interfaces : List Guid) (T : ProcessingObject σ)
    (self : ApoInstance σ) (method : Method) :
    ∀ h ∈ (InstanceCom.invoke interfaces T self method).hooks,
      ∀ s ∈ slices (.main h),
        Fits self.lockedFormats (realtimeInput (.shared method)) s := by
  have hnone : ∀ {hooks : List HookCall},
      (∀ h ∈ hooks, Sliceless (.main h)) → ∀ h ∈ hooks,
        ∀ s ∈ slices (.main h),
          Fits self.lockedFormats (realtimeInput (.shared method)) s := by
    intro hooks hsliceless h hmem s hs
    rw [hsliceless h hmem] at hs
    cases hs
  cases method with
  | apoProcess => exact apoProcess_fits T self _ _ _ _
  | initializeInstance => exact fun h hmem => nomatch hmem
  | isInputFormatSupported => exact hnone (negotiateFormat_sliceless T self _ _)
  | isOutputFormatSupported =>
      exact hnone (negotiateFormat_sliceless T self _ _)
  | lockForProcess => exact hnone (lockForProcess_sliceless T self _ _ _ _)
  | unlockForProcess => exact hnone (unlockForProcess_sliceless T self)
  | getEffectsList => exact hnone (listEffects_sliceless _ _ _ _ T self _)
  | getControllableSystemEffectsList =>
      exact hnone (listEffects_sliceless _ _ _ _ T self _)
  | setAudioSystemEffectState =>
      exact hnone (setAudioSystemEffectState_sliceless T self _ _)
  | reset => exact fun h hmem => nomatch hmem
  | getLatency => exact fun h hmem => nomatch hmem
  | getRegistrationProperties => exact fun h hmem => nomatch hmem
  | getInputChannelCount => exact fun h hmem => nomatch hmem
  | calcInputFrames => exact fun h hmem => nomatch hmem
  | calcOutputFrames => exact fun h hmem => nomatch hmem

theorem invoke_fits (interfaces : List Guid) (method : AecMethod) :
    ∀ h ∈ (invoke interfaces T self method).hooks, ∀ s ∈ slices h,
      Fits self.inner.lockedFormats (realtimeInput method) s := by
  cases method with
  | shared method =>
      intro h hmem
      obtain ⟨hook, hhook, rfl⟩ := List.mem_map.mp hmem
      exact shared_fits interfaces T.toProcessingObject self.inner method hook
        hhook
  | addAuxiliaryInput id size data connection =>
      simp only [invoke, ofAux, aecAddAuxiliaryInput]
      split <;> simp [AecEffect.map, AecApoInstance.addAuxInput, slices]
  | removeAuxiliaryInput id =>
      simp [invoke, ofAux, AecApoInstance.removeAuxInput, slices]
  | isAuxFormatSupported requested =>
      simp only [invoke, ofAux, aecIsAuxFormatSupported]
      split <;> simp [AecEffect.map, AecApoInstance.isAuxFormatSupported, slices]
  | acceptInput id connection =>
      intro h hmem
      obtain ⟨hook, hhook, rfl⟩ := List.mem_map.mp hmem
      exact acceptInput_fits id connection hook hhook

/-! ## The contract of the carrier -/

/-- What holds of an echo canceller `inst` after a run of the engine. -/
structure Contract (H : List AecExchange) (inst : AecApoInstance σ) :
    Prop where
  /-- It is started once, and its hooks keep to sessions: both realtime hooks
  run between a successful lock hook and the unlock hook after it. -/
  sessions_allowed : Justified Session.Allowed (sessions H)
  /-- The replies tell which formats are locked. -/
  session : inst.inner.lockedFormats = openSession H
  slices_fit : Justified SlicesFit H

theorem slicesFit_of_reaches {interfaces : List Guid} {H : List AecExchange}
    (h : (machine interfaces T).Reaches H self) : Justified SlicesFit H := by
  refine h.invariant_of_run (I := fun H _ => Justified SlicesFit H)
    (justified_nil _) ?_
  intro H es s s' method hreach hold _ hstep
  obtain ⟨rfl, rfl⟩ := Prod.mk.inj (Option.some.inj hstep)
  apply hold.concat
  rw [SlicesFit, ← lockedFormats_of_reaches hreach]
  exact invoke_fits interfaces method

/-- Every run of method calls on an echo canceller's carrier, whatever their
arguments and whatever the user's hooks do, keeps the contract. -/
theorem aecContract_of_reaches {interfaces : List Guid}
    {H : List AecExchange} (h : (machine interfaces T).Reaches H self) :
    Contract H self where
  sessions_allowed := by
    obtain ⟨phase, hpath, -⟩ := tracks_of_reaches h
    exact (Session.explains_of_path hpath).2
  session := lockedFormats_of_reaches h
  slices_fit := slicesFit_of_reaches h

/-- The test fixture with the default auxiliary hooks. -/
def aecPassthrough : AecProcessingObject Unit where
  toProcessingObject := passthrough

theorem aecContract_aecPassthrough :
    ∃ H self, (machine [] aecPassthrough).Reaches H self ∧
      sessions H = [.start,
        .acquire ⟨.pcmFloat32 48000 2, .pcmFloat32 48000 2⟩, .use, .release] ∧
      Contract H self := by
  have hreach : (machine [] aecPassthrough).Reaches _ _ :=
    Machine.reaches_of_exec
      [.acceptInput 7 (some ⟨0x1000, 480, .valid, connectionPropertySignature⟩),
        .shared (.initializeInstance 0 none),
        .shared (.lockForProcess
          1 (some (some (InstanceCom.descriptorOf (.pcmFloat32 48000 2))))
          1 (some (some (InstanceCom.descriptorOf (.pcmFloat32 48000 2))))),
        .acceptInput 7 (some ⟨0x1000, 480, .valid, connectionPropertySignature⟩),
        .shared .unlockForProcess]
      rfl
  exact ⟨_, _, hreach, rfl, aecContract_of_reaches hreach⟩

/-! ## The default auxiliary hooks -/

/-- The echo canceller keeps the hooks of the extension at their defaults. -/
structure KeepsDefaultAux (T : AecProcessingObject σ) : Prop where
  addAuxInput : ∀ user id format data,
    T.addAuxInput user id format data = (.ok (), user)
  removeAuxInput : ∀ user id, T.removeAuxInput user id = user
  isAuxFormatSupported : T.isAuxFormatSupported = T.isInputFormatSupported
  acceptAuxInput : ∀ user input, T.acceptAuxInput user input = user

/-- A refusal in the words of the plain carrier. -/
def plainError (e : ComError) : ComError :=
  if e.message = "AecProcessingObject rejected the requested aux format" then
    { e with
      message :=
        "ProcessingObject rejected the requested format with no alternative" }
  else e

/-- The hook that a hook of the extension defaults to. -/
def plainHook : AecHook → Option HookCall
  | .main h => some h
  | .aux (.isAuxFormatSupported format answer) =>
      some (.isInputFormatSupported format answer)
  | .aux _ => none

/-- A call as one on the plain carrier: an auxiliary format query asks about
the input format, and the rest of the auxiliary traffic is left out. -/
def plain (x : AecExchange) : Option InstanceCom.Exchange :=
  match x.method, x.reply with
  | .shared method, .shared reply =>
      some { method, hooks := x.hooks.filterMap plainHook, reply }
  | .isAuxFormatSupported requested, .shared (.mediaType r) =>
      some { method := .isInputFormatSupported none requested
             hooks := x.hooks.filterMap plainHook
             reply := .mediaType (r.mapError plainError) }
  | _, _ => none

theorem plainError_of_formatFromMediaType {requested : Option MediaType}
    {e : ComError} (h : formatFromMediaType requested = .error e) :
    plainError e = e := by
  rcases requested with _ | ⟨_ | wf⟩
  · cases h
    rfl
  · cases h
    rfl
  · cases h

/-- With the defaults an auxiliary format query is an input format query. -/
theorem isAuxFormatSupported_plain (hT : KeepsDefaultAux T)
    (self : AecApoInstance σ) (interfaces : List Guid)
    (requested : Option MediaType) :
    let c := invoke interfaces T self (.isAuxFormatSupported requested)
    let e := InstanceCom.invoke interfaces T.toProcessingObject self.inner
      (.isInputFormatSupported none requested)
    c.inst.inner = e.inst ∧
      plain { method := .isAuxFormatSupported requested
              hooks := c.hooks
              reply := c.reply } =
        some { method := .isInputFormatSupported none requested
               hooks := e.hooks
               reply := e.answer } := by
  simp only [invoke, ofAux, aecIsAuxFormatSupported, InstanceCom.invoke,
    negotiateFormat]
  cases hformat : formatFromMediaType requested with
  | error e =>
      have hplain := plainError_of_formatFromMediaType hformat
      simp [plain, Effect.map, Except.mapError, hplain]
  | ok format =>
      have haux : (self.isAuxFormatSupported T format).answer =
          (self.inner.isInputFormatSupported T.toProcessingObject
            format).answer := by
        rw [AecApoInstance.isAuxFormatSupported, hT.isAuxFormatSupported]
        rfl
      have hinst : (self.isAuxFormatSupported T format).inst.inner =
          (self.inner.isInputFormatSupported T.toProcessingObject
            format).inst := by
        rw [AecApoInstance.isAuxFormatSupported, hT.isAuxFormatSupported]
        rfl
      refine ⟨hinst, ?_⟩
      have hhooks : (self.isAuxFormatSupported T format).hooks =
          [.isAuxFormatSupported format
            (self.isAuxFormatSupported T format).answer] := rfl
      have hhooks' : (self.inner.isInputFormatSupported T.toProcessingObject
          format).hooks = [.isInputFormatSupported format
            (self.inner.isInputFormatSupported T.toProcessingObject
              format).answer] := rfl
      simp only [AecEffect.map, Effect.map, formatDecision, hhooks, hhooks',
        haux]
      cases (self.inner.isInputFormatSupported T.toProcessingObject
        format).answer with
      | accept => rfl
      | suggest alt => rfl
      | reject => rfl

/-- With the defaults the rest of the auxiliary traffic changes nothing. -/
theorem acceptInput_plain (hT : KeepsDefaultAux T) (id : UInt32)
    (connection : Option ConnectionProperty) :
    (aecAcceptInput T self id connection).inst = self := by
  by_cases haccepted : ∃ prop formats len,
      Accepted self.inner connection prop formats len
  · obtain ⟨prop, formats, len, haccepted⟩ := haccepted
    rw [aecAcceptInput_of_accepted T id haccepted,
      AecApoInstance.acceptAuxInput, hT.acceptAuxInput]
  · rw [aecAcceptInput_of_not_accepted T id fun prop formats len h =>
      haccepted ⟨prop, formats, len, h⟩]

theorem addAuxiliaryInput_plain (hT : KeepsDefaultAux T) (id size : UInt32)
    (data : Option (ℕ → UInt8)) (connection : Option ConnectionDescriptor) :
    (aecAddAuxiliaryInput T self id size data connection).inst = self := by
  unfold aecAddAuxiliaryInput
  split
  · rfl
  · simp only [AecEffect.map, AecApoInstance.addAuxInput, hT.addAuxInput]

theorem filterMap_plainHook_main (hooks : List HookCall) :
    (hooks.map AecHook.main).filterMap plainHook = hooks := by
  rw [List.filterMap_map]
  exact List.filterMap_some

/-- With the default auxiliary hooks every run of the carrier is, auxiliary
traffic aside, a run of the plain carrier on the same object. -/
theorem plain_run_of_reaches {interfaces : List Guid} {H : List AecExchange}
    (hT : KeepsDefaultAux T) (h : (machine interfaces T).Reaches H self) :
    (InstanceCom.machine interfaces T.toProcessingObject).Reaches
      (H.filterMap plain) self.inner := by
  refine h.invariant (I := fun H s =>
    (InstanceCom.machine interfaces T.toProcessingObject).Reaches
      (H.filterMap plain) s.inner) Machine.Run.start ?_
  intro H es s s' method hreach _ hstep
  obtain ⟨rfl, rfl⟩ := Prod.mk.inj (Option.some.inj hstep)
  rw [List.filterMap_append]
  cases method with
  | shared method =>
      have hplain : plain
          { method := .shared method
            hooks := (invoke interfaces T s (.shared method)).hooks
            reply := (invoke interfaces T s (.shared method)).reply } =
          some
            { method
              hooks := (InstanceCom.invoke interfaces T.toProcessingObject
                s.inner method).hooks
              reply := (InstanceCom.invoke interfaces T.toProcessingObject
                s.inner method).answer } := by
        simp only [plain, invoke, filterMap_plainHook_main]
      rw [List.filterMap_cons_some hplain]
      exact hreach.next rfl
  | isAuxFormatSupported requested =>
      obtain ⟨hinst, hplain⟩ :=
        isAuxFormatSupported_plain hT s interfaces requested
      rw [List.filterMap_cons_some hplain, hinst]
      exact hreach.next rfl
  | addAuxiliaryInput id size data connection =>
      rw [List.filterMap_cons_none rfl, List.filterMap_nil, List.append_nil,
        invoke, ofAux, addAuxiliaryInput_plain hT]
      exact hreach
  | removeAuxiliaryInput id =>
      rw [List.filterMap_cons_none rfl, List.filterMap_nil, List.append_nil,
        invoke, ofAux, AecApoInstance.removeAuxInput, hT.removeAuxInput]
      exact hreach
  | acceptInput id connection =>
      rw [List.filterMap_cons_none rfl, List.filterMap_nil, List.append_nil,
        invoke, ofAux, acceptInput_plain hT]
      exact hreach

theorem plain_run_aecPassthrough :
    ∃ H self, (machine [] aecPassthrough).Reaches H self ∧ H.length = 3 ∧
      (InstanceCom.machine [] passthrough).Reaches (H.filterMap plain)
        self.inner := by
  have hreach : (machine [] aecPassthrough).Reaches _ _ :=
    Machine.reaches_of_exec
      [.shared (.initializeInstance 0 none),
        .addAuxiliaryInput 7 0 none
          (some (InstanceCom.descriptorOf (.pcmFloat32 48000 1))),
        .isAuxFormatSupported
          (some (mediaTypeFromFormat (.pcmFloat32 48000 1)))]
      rfl
  have hT : KeepsDefaultAux aecPassthrough :=
    ⟨fun _ _ _ _ => rfl, fun _ _ => rfl, rfl, fun _ _ => rfl⟩
  exact ⟨_, _, hreach, rfl, plain_run_of_reaches hT hreach⟩

end TympanApo.AecInstanceCom
