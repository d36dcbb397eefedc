import TympanApo.Raw.EffectLists
import TympanApo.Raw.LockDispatch
import TympanApo.Raw.RegPayload

/-!
# The methods of a carrier

The interfaces of `raw/instance_com.rs` as the engine calls them: any method,
with any arguments, in any order.  Every method comes down to calls on the
instance behind the carrier, so a run of the engine is a run of the instance
with the same hooks, and the formats a session was opened with can be read off
the replies the engine was given.
-/

namespace TympanApo.InstanceCom

open TympanApo.Dispatch
open TympanApo.RegProperties (InterfaceIds supportedInterfaces)
open TympanApo.Support

/-! ## Answers of the carrier alone -/

variable {σ : Type}

/-- `build_registration_properties` and its twin for echo cancellers, which
differ in the list that they hand on. -/
def registrationProperties (interfaces : List Guid) (alloc : CoTaskMemAlloc)
    (T : ProcessingObject σ) (self : ApoInstance σ) : Except ComError Block :=
  RegProperties.buildRegistrationPropertiesWith alloc { T, inst := self }
    interfaces

/-- `get_input_channel_count`. -/
def getInputChannelCount (self : ApoInstance σ) : Except ComError UInt32 :=
  match self.lockedFormats with
  | some f => .ok f.input.channels.toUInt32
  | none => .error
      { code := HResult.apoerrNotLocked
        message := "GetInputChannelCount called outside of the Locked state" }

/-! ## Methods -/

/-- A method of the carrier with its arguments.  A method that allocates also
carries what the allocator answers, and `GetEffectsList` and its twin the out
parameters they are handed. -/
inductive Method
  | reset
  | getLatency
  | getRegistrationProperties (alloc : CoTaskMemAlloc)
  | initializeInstance (cbdatasize : UInt32) (pbydata : Option (ℕ → UInt8))
  | isInputFormatSupported (poppositeformat prequestedinputformat :
      Option MediaType)
  | isOutputFormatSupported (poppositeformat prequestedoutputformat :
      Option MediaType)
  | getInputChannelCount
  | lockForProcess (u32NumInputConnections : UInt32)
      (ppInputConnections : Option (Option ConnectionDescriptor))
      (u32NumOutputConnections : UInt32)
      (ppOutputConnections : Option (Option ConnectionDescriptor))
  | unlockForProcess
  | apoProcess (u32NumInputConnections : UInt32)
      (ppInputConnections : Connections) (u32NumOutputConnections : UInt32)
      (ppOutputConnections : Connections)
  | calcInputFrames (u32OutputFrameCount : UInt32)
  | calcOutputFrames (u32InputFrameCount : UInt32)
  | getEffectsList (alloc : CoTaskMemAlloc) (out : OutParams)
  | getControllableSystemEffectsList (alloc : CoTaskMemAlloc)
      (out : OutParams)
  | setAudioSystemEffectState (effectid : Guid)
      (state : AudioSystemEffectState)

/-- What a method returns or leaves behind its out pointers. -/
inductive Reply
  | result (r : Except ComError Unit)
  | latency (hns : Int64)
  | properties (r : Except ComError Block)
  | mediaType (r : Except ComError MediaType)
  | channelCount (r : Except ComError UInt32)
  | connections (out : Connections)
  | frames (n : UInt32)
  | listing (l : Listing)

/-- An answer that runs no hook. -/
def quietly (self : ApoInstance σ) (reply : Reply) : Effect σ Reply where
  answer := reply
  inst := self
  hooks := []

/-- The methods of `ApoInstanceCom`; the two carriers differ in the interfaces
they advertise. -/
def invoke (interfaces : List Guid) (T : ProcessingObject σ)
    (self : ApoInstance σ) : Method → Effect σ Reply
  | .reset => quietly self (.result (.ok ()))
  | .getLatency => quietly self (.latency 0)
  | .getRegistrationProperties alloc =>
      quietly self
        (.properties (registrationProperties interfaces alloc T self))
  | .initializeInstance _ _ =>
      (Dispatch.initializeInstance self).map .result
  | .isInputFormatSupported _ requested =>
      (negotiateFormat T self requested .input).map .mediaType
  | .isOutputFormatSupported _ requested =>
      (negotiateFormat T self requested .output).map .mediaType
  | .getInputChannelCount =>
      quietly self (.channelCount (InstanceCom.getInputChannelCount self))
  | .lockForProcess numIn ppIn numOut ppOut =>
      (Dispatch.lockForProcess T self numIn ppIn numOut ppOut).map .result
  | .unlockForProcess => (Dispatch.unlockForProcess T self).map .result
  | .apoProcess numIn ppIn numOut ppOut =>
      (Dispatch.apoProcess T self numIn ppIn numOut ppOut).map .connections
  -- No resampling: one input frame yields one output frame.
  | .calcInputFrames n => quietly self (.frames n)
  | .calcOutputFrames n => quietly self (.frames n)
  | .getEffectsList alloc out =>
      (Dispatch.getEffectsList alloc T self out).map .listing
  | .getControllableSystemEffectsList alloc out =>
      (Dispatch.getControllableSystemEffectsList alloc T self out).map .listing
  | .setAudioSystemEffectState effectid state =>
      (Dispatch.setAudioSystemEffectState T self effectid state).map .result

/-! ## Runs of the engine -/

/-- One call: the method, the hooks it ran, in order, and the reply. -/
structure Exchange where
  method : Method
  hooks : List HookCall
  reply : Reply

/-- Any number of method calls on a new carrier, one after the other. -/
def machine (interfaces : List Guid) (T : ProcessingObject σ) :
    Machine (ApoInstance σ) Method Exchange where
  init := ApoInstance.new T
  step self method :=
    let e := invoke interfaces T self method
    some (e.inst, [{ method, hooks := e.hooks, reply := e.answer }])

/-- `ApoInstanceCom`. -/
def apoInstanceCom (iids : InterfaceIds) (T : ProcessingObject σ) :
    Machine (ApoInstance σ) Method Exchange :=
  machine (supportedInterfaces iids) T

/-- The hooks of a run, in order. -/
def hooks (H : List Exchange) : List HookCall :=
  H.flatMap (·.hooks)

/-- The formats that the descriptors of a `LockForProcess` call lead to. -/
def describedFormats
    (ppInputConnections ppOutputConnections :
      Option (Option ConnectionDescriptor)) : Option LockedFormats :=
  match ppInputConnections, ppOutputConnections with
  | some inputDesc, some outputDesc =>
      match formatFromDescriptor inputDesc, formatFromDescriptor outputDesc with
      | .ok input, .ok output => some { input, output }
      | _, _ => none
  | _, _ => none

/-- The formats a call opened a session with, by its reply. -/
def opened (method : Method) (reply : Reply) : Option LockedFormats :=
  match method, reply with
  | .lockForProcess _ ppIn _ ppOut, .result (.ok ()) =>
      describedFormats ppIn ppOut
  | _, _ => none

/-- The formats of the sessions opened in a run, in order. -/
def openings (H : List Exchange) : List LockedFormats :=
  H.filterMap fun x => opened x.method x.reply

/-- Whether a call started the instance, by its reply. -/
def started (method : Method) (reply : Reply) :
    Option (Session.Op LockedFormats) :=
  match method, reply with
  | .initializeInstance _ _, .result (.ok ()) => some .start
  | _, _ => none

/-- What a hook does to the session protocol. -/
def hookOp (h : HookCall) : Option (Session.Op LockedFormats) :=
  Lifecycle.sessionOp (.hook h)

/-- What a call does to the session protocol: its hooks, and a start. -/
def sessionOps (method : Method) (hooks : List HookCall) (reply : Reply) :
    List (Session.Op LockedFormats) :=
  hooks.filterMap hookOp ++ (started method reply).toList

/-- What a run does to the session protocol. -/
def sessions (H : List Exchange) : List (Session.Op LockedFormats) :=
  H.flatMap fun x => sessionOps x.method x.hooks x.reply

/-! ## Down to the instance -/

/-- The hook an event of the instance records. -/
def hookOf : Lifecycle.Event → Option HookCall
  | .hook h => some h
  | .returned _ _ => none

variable {T : ProcessingObject σ} {self : ApoInstance σ} {method : Method}
    {e : Effect σ Reply}

/-- The events `K` of the instance are what a call that did `e` amounts to:
the same hooks, the same successful locks and the same session. -/
structure AmountsTo (method : Method) (e : Effect σ Reply)
    (K : List Lifecycle.Event) : Prop where
  hooks : K.filterMap hookOf = e.hooks
  locks : Lifecycle.successfulLocks K = (opened method e.answer).toList
  ops : K.filterMap Lifecycle.sessionOp = sessionOps method e.hooks e.answer

/-- A method call that did `e` comes down to the calls `cs` on the instance. -/
def ComesDownTo (T : ProcessingObject σ) (self : ApoInstance σ)
    (method : Method) (e : Effect σ Reply) (cs : List Lifecycle.Call) : Prop :=
  ∀ K, ∃ K', (Lifecycle.machine T).execFrom cs K self =
    some (K ++ K', e.inst) ∧ AmountsTo method e K'

theorem comesDownTo_nil (hinst : e.inst = self) (hhooks : e.hooks = [])
    (hopened : opened method e.answer = none)
    (hstarted : started method e.answer = none) :
    ComesDownTo T self method e [] := by
  intro K
  refine ⟨[], ?_, ?_, ?_, ?_⟩
  · rw [hinst, List.append_nil]
    rfl
  · rw [hhooks]
    rfl
  · rw [hopened]
    rfl
  · rw [sessionOps, hhooks, hstarted]
    rfl

theorem filterMap_events {α : Type} (f : Lifecycle.Event → Option α)
    (call : Lifecycle.Call) (e : Effect σ Lifecycle.Answer) :
    (Lifecycle.events call e).filterMap f =
      e.hooks.filterMap (fun h => f (.hook h)) ++
        (f (.returned call e.answer)).toList := by
  rw [Lifecycle.events, List.filterMap_append, List.filterMap_map]
  cases hreturned : f (.returned call e.answer) <;>
    simp [hreturned]

theorem filterMap_hookOf_events (call : Lifecycle.Call)
    (e : Effect σ Lifecycle.Answer) :
    (Lifecycle.events call e).filterMap hookOf = e.hooks := by
  rw [filterMap_events]
  simp [hookOf]

theorem successfulLocks_events (call : Lifecycle.Call)
    (e : Effect σ Lifecycle.Answer) :
    Lifecycle.successfulLocks (Lifecycle.events call e) =
      (Lifecycle.lockArguments (.returned call e.answer)).toList := by
  have hhooks : (fun h => Lifecycle.lockArguments (.hook h)) =
      fun _ => none := rfl
  rw [Lifecycle.successfulLocks, filterMap_events, hhooks]
  simp

/-- A method that makes one call. -/
theorem comesDownTo_singleton (call : Lifecycle.Call)
    (hinst : e.inst = (Lifecycle.perform T self call).inst)
    (hhooks : e.hooks = (Lifecycle.perform T self call).hooks)
    (hopened : Lifecycle.lockArguments
      (.returned call (Lifecycle.perform T self call).answer) =
        opened method e.answer)
    (hstarted : Lifecycle.sessionOp
      (.returned call (Lifecycle.perform T self call).answer) =
        started method e.answer) :
    ComesDownTo T self method e [call] := by
  intro K
  refine ⟨Lifecycle.events call (Lifecycle.perform T self call), ?_, ?_, ?_,
    ?_⟩
  · rw [hinst]
    rfl
  · rw [hhooks]
    exact filterMap_hookOf_events call _
  · rw [← hopened]
    exact successfulLocks_events call _
  · rw [filterMap_events, hstarted, sessionOps, hhooks]
    rfl

theorem negotiateFormat_comesDownTo (requested : Option MediaType)
    (direction : NegotiationDirection)
    (hopened : ∀ reply, opened method (.mediaType reply) = none)
    (hstarted : ∀ reply, started method (.mediaType reply) = none) :
    ∃ cs, ComesDownTo T self method
      ((negotiateFormat T self requested direction).map .mediaType) cs := by
  unfold negotiateFormat
  split
  next => exact ⟨[], comesDownTo_nil rfl rfl (hopened _) (hstarted _)⟩
  next format hformat =>
    cases direction with
    | input =>
        exact ⟨[.isInputFormatSupported format],
          comesDownTo_singleton _ rfl rfl (hopened _).symm (hstarted _).symm⟩
    | output =>
        exact ⟨[.isOutputFormatSupported format],
          comesDownTo_singleton _ rfl rfl (hopened _).symm (hstarted _).symm⟩

theorem lockForProcess_comesDownTo (numIn numOut : UInt32)
    (ppIn ppOut : Option (Option ConnectionDescriptor)) :
    ∃ cs, ComesDownTo T self (.lockForProcess numIn ppIn numOut ppOut)
      ((Dispatch.lockForProcess T self numIn ppIn numOut ppOut).map .result)
      cs := by
  by_cases hpass : ∃ wfIn wfOut, ArgumentsPass numIn ppIn numOut ppOut wfIn wfOut
  · obtain ⟨wfIn, wfOut, hpass⟩ := hpass
    refine ⟨[.lockForProcess (Format.fromWaveformatexPtr wfIn)
      (Format.fromWaveformatexPtr wfOut)], ?_⟩
    rw [lockForProcess_of_argumentsPass hpass]
    obtain ⟨rfl, rfl, ⟨inputDesc, rfl, hin⟩, ⟨outputDesc, rfl, hout⟩⟩ := hpass
    refine comesDownTo_singleton _ rfl rfl ?_ rfl
    have hdescribed : describedFormats (some (some inputDesc))
        (some (some outputDesc)) = some (decodedFormats wfIn wfOut) := by
      simp only [describedFormats, formatFromDescriptor_of_describes hin,
        formatFromDescriptor_of_describes hout]
      rfl
    simp only [Lifecycle.perform, Effect.map]
    cases (self.lockForProcess T (Format.fromWaveformatexPtr wfIn)
      (Format.fromWaveformatexPtr wfOut)).answer with
    | error code => rfl
    | ok => exact hdescribed.symm
  · obtain ⟨err, -, hrefused⟩ := lockForProcess_of_not_argumentsPass T self
      fun wfIn wfOut h => hpass ⟨wfIn, wfOut, h⟩
    rw [hrefused]
    exact ⟨[], comesDownTo_nil rfl rfl rfl rfl⟩

theorem apoProcess_comesDownTo (numIn numOut : UInt32)
    (ppIn ppOut : Connections) :
    ∃ cs, ComesDownTo T self (.apoProcess numIn ppIn numOut ppOut)
      ((Dispatch.apoProcess T self numIn ppIn numOut ppOut).map .connections)
      cs := by
  by_cases hconnected : ∃ inProp outProp,
      Connected numIn ppIn numOut ppOut inProp outProp
  · obtain ⟨inProp, outProp, hconnected⟩ := hconnected
    rw [apoProcess_of_connected hconnected]
    unfold processConnection
    split
    next => exact ⟨[], comesDownTo_nil rfl rfl rfl rfl⟩
    next =>
      split
      next => exact ⟨[], comesDownTo_nil rfl rfl rfl rfl⟩
      next =>
        split
        next => exact ⟨[], comesDownTo_nil rfl rfl rfl rfl⟩
        next => exact ⟨[.process _ _], comesDownTo_singleton _ rfl rfl rfl rfl⟩
  · rw [apoProcess_of_not_connected fun inProp outProp h =>
      hconnected ⟨inProp, outProp, h⟩]
    exact ⟨[], comesDownTo_nil rfl rfl rfl rfl⟩

theorem listEffects_comesDownTo (name : String) (size : UInt64)
    (encode : SystemEffect → List UInt8) (alloc : CoTaskMemAlloc)
    (out : OutParams)
    (hopened : ∀ reply, opened method (.listing reply) = none)
    (hstarted : ∀ reply, started method (.listing reply) = none) :
    ∃ cs, ComesDownTo T self method
      ((listEffects name size encode alloc T self out).map .listing) cs := by
  unfold listEffects
  split
  next => exact ⟨[], comesDownTo_nil rfl rfl (hopened _) (hstarted _)⟩
  next =>
    exact ⟨[.systemEffects], comesDownTo_singleton _ rfl rfl (hopened _).symm
      (hstarted _).symm⟩

theorem setAudioSystemEffectState_comesDownTo (effectid : Guid)
    (state : AudioSystemEffectState) :
    ∃ cs, ComesDownTo T self (.setAudioSystemEffectState effectid state)
      ((Dispatch.setAudioSystemEffectState T self effectid state).map .result)
      cs := by
  by_cases hreached : Known T self effectid ∧ crossState state ≠ none
  · obtain ⟨hknown, hstate⟩ := hreached
    obtain ⟨cross, hcross⟩ := Option.ne_none_iff_exists'.mp hstate
    rw [setAudioSystemEffectState_of_known hknown hcross]
    refine ⟨[.systemEffects,
      .setSystemEffectState (Clsid.ofGuid effectid) cross], ?_⟩
    intro K
    -- The second call is made on the instance that the query leaves.
    let toggle := Lifecycle.Call.setSystemEffectState
      (Clsid.ofGuid effectid) cross
    let queried := Lifecycle.perform T self .systemEffects
    let toggled := Lifecycle.perform T queried.inst toggle
    refine ⟨Lifecycle.events .systemEffects queried ++
      Lifecycle.events toggle toggled, ?_, rfl, rfl, rfl⟩
    rw [← List.append_assoc]
    rfl
  · rw [not_and_or, not_not] at hreached
    obtain ⟨err, -, hrefused⟩ := setAudioSystemEffectState_of_not hreached
    rw [hrefused]
    exact ⟨[.systemEffects], comesDownTo_singleton _ rfl rfl rfl rfl⟩

/-- Every method comes down to calls on the instance. -/
theorem invoke_comesDownTo (interfaces : List Guid) (T : ProcessingObject σ)
    (self : ApoInstance σ) (method : Method) :
    ∃ cs, ComesDownTo T self method (invoke interfaces T self method) cs := by
  cases method with
  | initializeInstance cbdatasize pbydata =>
      refine ⟨[.initializeInstance], comesDownTo_singleton _ rfl rfl rfl ?_⟩
      simp only [invoke, Lifecycle.perform, Dispatch.initializeInstance,
        Effect.map]
      cases self.initializeInstance.answer with
      | error code => rfl
      | ok => rfl
  | isInputFormatSupported =>
      exact negotiateFormat_comesDownTo _ _ (fun _ => rfl) fun _ => rfl
  | isOutputFormatSupported =>
      exact negotiateFormat_comesDownTo _ _ (fun _ => rfl) fun _ => rfl
  | lockForProcess => exact lockForProcess_comesDownTo _ _ _ _
  | unlockForProcess =>
      exact ⟨[.unlockForProcess], comesDownTo_singleton _ rfl rfl rfl rfl⟩
  | apoProcess => exact apoProcess_comesDownTo _ _ _ _
  | getEffectsList =>
      exact listEffects_comesDownTo _ _ _ _ _ (fun _ => rfl) fun _ => rfl
  | getControllableSystemEffectsList =>
      exact listEffects_comesDownTo _ _ _ _ _ (fun _ => rfl) fun _ => rfl
  | setAudioSystemEffectState =>
      exact setAudioSystemEffectState_comesDownTo _ _
  | reset => exact ⟨[], comesDownTo_nil rfl rfl rfl rfl⟩
  | getLatency => exact ⟨[], comesDownTo_nil rfl rfl rfl rfl⟩
  | getRegistrationProperties => exact ⟨[], comesDownTo_nil rfl rfl rfl rfl⟩
  | getInputChannelCount => exact ⟨[], comesDownTo_nil rfl rfl rfl rfl⟩
  | calcInputFrames => exact ⟨[], comesDownTo_nil rfl rfl rfl rfl⟩
  | calcOutputFrames => exact ⟨[], comesDownTo_nil rfl rfl rfl rfl⟩

/-- What a run of the instance has in common with a run of the engine. -/
structure SameRun (H : List Exchange) (K : List Lifecycle.Event) : Prop where
  hooks : K.filterMap hookOf = hooks H
  locks : Lifecycle.successfulLocks K = openings H
  ops : K.filterMap Lifecycle.sessionOp = sessions H

theorem SameRun.concat {H : List Exchange} {K K' : List Lifecycle.Event}
    (h : SameRun H K) (hcall : AmountsTo method e K') :
    SameRun (H ++ [{ method, hooks := e.hooks, reply := e.answer }])
      (K ++ K') := by
  constructor
  · rw [List.filterMap_append, h.hooks, hcall.hooks, InstanceCom.hooks,
      InstanceCom.hooks, List.flatMap_append, List.flatMap_singleton]
  · have happend : Lifecycle.successfulLocks (K ++ K') =
        Lifecycle.successfulLocks K ++ Lifecycle.successfulLocks K' :=
      List.filterMap_append
    rw [happend, h.locks, hcall.locks, openings, openings,
      List.filterMap_append]
    cases hopened : opened method e.answer <;> simp [hopened]
  · rw [List.filterMap_append, h.ops, hcall.ops, sessions, sessions,
      List.flatMap_append, List.flatMap_singleton]

/-- A run of the engine is a run of the instance behind the carrier. -/
theorem exists_instance_run {interfaces : List Guid} {H : List Exchange}
    (h : (machine interfaces T).Reaches H self) :
    ∃ K, (Lifecycle.machine T).Reaches K self ∧ SameRun H K := by
  refine h.invariant (I := fun H s =>
    ∃ K, (Lifecycle.machine T).Reaches K s ∧ SameRun H K) ?_ ?_
  · exact ⟨[], Machine.Run.start, rfl, rfl, rfl⟩
  · rintro H es s s' method ⟨K, hreach, hsame⟩ - hstep
    obtain ⟨rfl, rfl⟩ := Prod.mk.inj (Option.some.inj hstep)
    obtain ⟨cs, hcalls⟩ := invoke_comesDownTo interfaces T s method
    obtain ⟨K', hexec, hamounts⟩ := hcalls K
    exact ⟨K ++ K', hreach.execFrom hexec, hsame.concat hamounts⟩

/-! ## The session the engine sees -/

/-- The session after a call, by its reply. -/
def sessionAfter (session : Option LockedFormats) (method : Method)
    (reply : Reply) : Option LockedFormats :=
  match method, reply with
  | .lockForProcess _ ppIn _ ppOut, .result (.ok ()) =>
      describedFormats ppIn ppOut
  | .unlockForProcess, .result (.ok ()) => none
  | _, _ => session

/-- The formats of the session open after a run, read off its replies. -/
def openSession (H : List Exchange) : Option LockedFormats :=
  H.foldl (fun session x => sessionAfter session x.method x.reply) none

/-- The formats handed out depend on the cell and the cache alone. -/
theorem lockedFormats_congr {self' : ApoInstance σ}
    (hstate : self'.state = self.state)
    (hcell : self'.lockedFormatsCell = self.lockedFormatsCell) :
    self'.lockedFormats = self.lockedFormats := by
  rw [ApoInstance.lockedFormats, ApoInstance.lockedFormats, hstate, hcell]

theorem lockedFormats_initializeInstance :
    (Dispatch.initializeInstance self).inst.lockedFormats =
      self.lockedFormats := by
  rw [Dispatch.initializeInstance]
  by_cases hload : self.state.load = .uninitialized
  · rw [ApoInstance.initializeInstance_of_uninitialized hload]
    have hbefore : self.lockedFormats = none := by
      apply ApoInstance.lockedFormats_of_ne
      rw [hload]
      decide
    have hafter : (Realtime.StateCell.holding .initialized).load ≠ .locked := by
      rw [Realtime.StateCell.load_holding]
      decide
    rw [hbefore]
    exact ApoInstance.lockedFormats_of_ne hafter
  · rw [ApoInstance.initializeInstance_of_ne hload]
    rfl

theorem lockedFormats_negotiateFormat (requested : Option MediaType)
    (direction : NegotiationDirection) :
    (negotiateFormat T self requested direction).inst.lockedFormats =
      self.lockedFormats := by
  unfold negotiateFormat
  split
  next => rfl
  next => cases direction <;> rfl

theorem lockedFormats_lockForProcess (numIn numOut : UInt32)
    (ppIn ppOut : Option (Option ConnectionDescriptor)) :
    (Dispatch.lockForProcess T self numIn ppIn numOut ppOut).inst.lockedFormats =
      sessionAfter self.lockedFormats (.lockForProcess numIn ppIn numOut ppOut)
        (.result (Dispatch.lockForProcess T self numIn ppIn numOut
          ppOut).answer) := by
  have houtcome := lockForProcess_outcome T self numIn ppIn numOut ppOut
  generalize Dispatch.lockForProcess T self numIn ppIn numOut ppOut = e
    at houtcome
  cases houtcome with
  | badArguments => rfl
  | badState => rfl
  | refused => exact lockedFormats_congr rfl rfl
  | locked wfIn wfOut inner hargs =>
      obtain ⟨-, -, ⟨inputDesc, rfl, hin⟩, ⟨outputDesc, rfl, hout⟩⟩ := hargs
      simp only [sessionAfter, describedFormats,
        formatFromDescriptor_of_describes hin,
        formatFromDescriptor_of_describes hout]
      exact ApoInstance.lockedFormats_of_locked
        (Realtime.StateCell.load_holding _)

theorem lockedFormats_unlockForProcess :
    (Dispatch.unlockForProcess T self).inst.lockedFormats =
      sessionAfter self.lockedFormats .unlockForProcess
        (.result (Dispatch.unlockForProcess T self).answer) := by
  rw [Dispatch.unlockForProcess]
  by_cases hload : self.state.load = .locked
  · rw [ApoInstance.unlockForProcess_of_locked hload]
    exact ite_self _
  · rw [ApoInstance.unlockForProcess_of_ne hload]
    rfl

theorem lockedFormats_apoProcess (numIn numOut : UInt32)
    (ppIn ppOut : Connections) :
    (Dispatch.apoProcess T self numIn ppIn numOut ppOut).inst.lockedFormats =
      self.lockedFormats := by
  rcases @Dispatch.apoProcess_inst σ T self numIn ppIn numOut ppOut with
    hsame | ⟨input, output, hprocess⟩
  · rw [hsame]
  · rw [hprocess, Lifecycle.perform]
    by_cases hload : self.state.load = .locked
    · rw [ApoInstance.process_of_locked input output hload]
      rfl
    · rw [ApoInstance.process_of_ne input output hload]
      rfl

theorem lockedFormats_setAudioSystemEffectState (effectid : Guid)
    (state : AudioSystemEffectState) :
    (Dispatch.setAudioSystemEffectState T self effectid
      state).inst.lockedFormats = self.lockedFormats := by
  unfold Dispatch.setAudioSystemEffectState
  dsimp only
  split
  · rfl
  · split <;> rfl

/-- Every method moves the session the way its reply says. -/
theorem lockedFormats_invoke (interfaces : List Guid) (T : ProcessingObject σ)
    (self : ApoInstance σ) (method : Method) :
    (invoke interfaces T self method).inst.lockedFormats =
      sessionAfter self.lockedFormats method
        (invoke interfaces T self method).answer := by
  cases method with
  | initializeInstance => exact lockedFormats_initializeInstance
  | isInputFormatSupported => exact lockedFormats_negotiateFormat _ _
  | isOutputFormatSupported => exact lockedFormats_negotiateFormat _ _
  | lockForProcess => exact lockedFormats_lockForProcess _ _ _ _
  | unlockForProcess => exact lockedFormats_unlockForProcess
  | apoProcess => exact lockedFormats_apoProcess _ _ _ _
  | getEffectsList =>
      simp only [invoke, Dispatch.getEffectsList, listEffects]
      split <;> rfl
  | getControllableSystemEffectsList =>
      simp only [invoke, Dispatch.getControllableSystemEffectsList, listEffects]
      split <;> rfl
  | setAudioSystemEffectState =>
      exact lockedFormats_setAudioSystemEffectState _ _
  | reset => rfl
  | getLatency => rfl
  | getRegistrationProperties => rfl
  | getInputChannelCount => rfl
  | calcInputFrames => rfl
  | calcOutputFrames => rfl

theorem openSession_concat (H : List Exchange) (x : Exchange) :
    openSession (H ++ [x]) = sessionAfter (openSession H) x.method x.reply := by
  rw [openSession, List.foldl_append]
  rfl

/-- After every run the replies tell which formats are locked. -/
theorem lockedFormats_of_reaches {interfaces : List Guid} {H : List Exchange}
    (h : (machine interfaces T).Reaches H self) :
    self.lockedFormats = openSession H := by
  refine h.invariant (I := fun H s => s.lockedFormats = openSession H) ?_ ?_
  · apply ApoInstance.lockedFormats_of_ne
    rw [machine, ApoInstance.new, Realtime.StateCell.load_new]
    decide
  · intro H es s s' method hsession _ hstep
    obtain ⟨rfl, rfl⟩ := Prod.mk.inj (Option.some.inj hstep)
    rw [openSession_concat, ← hsession]
    exact lockedFormats_invoke interfaces T s method

/-! ## The surface of a carrier -/

/-- What `GetInputChannelCount` replies in an open session, and outside. -/
def channelCountIn (session : Option LockedFormats)
    (reply : Except ComError UInt32) : Prop :=
  match session with
  | some formats => reply = .ok formats.input.channels.toUInt32
  | none => ∃ e, reply = .error e ∧ e.code = HResult.apoerrNotLocked

theorem channelCountIn_getInputChannelCount (self : ApoInstance σ) :
    channelCountIn self.lockedFormats (getInputChannelCount self) := by
  unfold getInputChannelCount
  cases self.lockedFormats with
  | none => exact ⟨_, rfl, rfl⟩
  | some formats => rfl

/-- The reply to `GetInputChannelCount` is the one the session calls for. -/
def ChannelCountTold (H : List Exchange) (x : Exchange) : Prop :=
  x.method = .getInputChannelCount →
    ∃ reply, x.reply = .channelCount reply ∧
      channelCountIn (openSession H) reply

/-- What holds of a carrier around `inst` after a run of the engine. -/
structure Surface (T : ProcessingObject σ) (H : List Exchange)
    (inst : ApoInstance σ) : Prop where
  /-- The run is one of the instance: the same hooks in the same order, and
  the successful locks of the formats the descriptors lead to. -/
  instance_run : ∃ K, (Lifecycle.machine T).Reaches K inst ∧ SameRun H K
  /-- The instance is started once, and its hooks keep to sessions. -/
  sessions_allowed : Justified Session.Allowed (sessions H)
  /-- The replies tell which formats are locked. -/
  session : inst.lockedFormats = openSession H
  channelCount : Justified ChannelCountTold H

theorem channelCountTold_of_reaches {interfaces : List Guid}
    {H : List Exchange} (h : (machine interfaces T).Reaches H self) :
    Justified ChannelCountTold H := by
  refine h.invariant_of_run (I := fun H _ => Justified ChannelCountTold H)
    (justified_nil _) ?_
  intro H es s s' method hreach hold _ hstep
  obtain ⟨rfl, rfl⟩ := Prod.mk.inj (Option.some.inj hstep)
  apply hold.concat
  rintro rfl
  refine ⟨_, rfl, ?_⟩
  rw [← lockedFormats_of_reaches hreach]
  exact channelCountIn_getInputChannelCount s

/-- Every run of method calls on a carrier, whatever their arguments, is a run
of the instance behind it whose sessions the replies tell. -/
theorem surface_of_reaches {interfaces : List Guid} {H : List Exchange}
    (h : (machine interfaces T).Reaches H self) : Surface T H self where
  instance_run := exists_instance_run h
  sessions_allowed := by
    obtain ⟨K, hreach, hsame⟩ := exists_instance_run h
    obtain ⟨phase, hpath, -⟩ := Lifecycle.tracks_of_reaches hreach
    rw [hsame.ops] at hpath
    exact (Session.explains_of_path hpath).2
  session := lockedFormats_of_reaches h
  channelCount := channelCountTold_of_reaches h

/-! ## What a carrier advertises -/

/-- The reply to `GetRegistrationProperties`: it fails only for want of memory,
and else names the class and the interfaces. -/
def Advertises (interfaces : List Guid) (T : ProcessingObject σ)
    (alloc : CoTaskMemAlloc) (reply : Reply) : Prop :=
  ∃ r, reply = .properties r ∧
    (r.isOk ↔
      (alloc (UInt64.ofNat (1092 + 16 * (interfaces.length - 1)))).isSome) ∧
    ∀ b, r = .ok b →
      RegProperties.readClsid b = T.clsid ∧
        RegProperties.readInterfaces b = interfaces

theorem advertises_invoke {interfaces : List Guid}
    (hcount : interfaces.length < 2 ^ 32) (T : ProcessingObject σ)
    (self : ApoInstance σ) (alloc : CoTaskMemAlloc) :
    Advertises interfaces T alloc
      (invoke interfaces T self (.getRegistrationProperties alloc)).answer := by
  refine ⟨registrationProperties interfaces alloc T self, rfl, ?_, ?_⟩
  · exact RegProperties.buildRegistrationPropertiesWith_isOk_iff alloc _ hcount
  · intro b hbuilt
    have hpayload := (RegProperties.payload_of_built hcount hbuilt).2
    exact ⟨hpayload.clsid, hpayload.interfaces⟩

/-- In every run `ApoInstanceCom` advertises its class and six interfaces. -/
theorem apoInstanceCom_advertises {iids : InterfaceIds} {H : List Exchange}
    (h : (apoInstanceCom iids T).Reaches H self) :
    ∀ e ∈ H, ∀ alloc, e.method = .getRegistrationProperties alloc →
      Advertises (supportedInterfaces iids) T alloc e.reply := by
  refine h.forall_mem (P := fun e => ∀ alloc,
    e.method = .getRegistrationProperties alloc →
      Advertises (supportedInterfaces iids) T alloc e.reply) ?_
  intro H es s s' method _ _ hstep e he
  obtain ⟨-, rfl⟩ := Prod.mk.inj (Option.some.inj hstep)
  obtain rfl := List.mem_singleton.mp he
  rintro alloc rfl
  exact advertises_invoke (by simp) T s alloc

/-- The descriptor of a connection with a format. -/
def descriptorOf (format : Format) : ConnectionDescriptor where
  pFormat := some (mediaTypeFromFormat format)
  u32Signature := connectionPropertySignature

theorem surface_passthrough :
    ∃ H self, (machine [] passthrough).Reaches H self ∧
      openSession H = some ⟨.pcmFloat32 48000 6, .pcmFloat32 48000 1⟩ ∧
      Surface passthrough H self := by
  have hreach : (machine [] passthrough).Reaches _ _ :=
    Machine.reaches_of_exec
      [.getInputChannelCount, .initializeInstance 0 none,
        .lockForProcess 1 (some (some (descriptorOf (.pcmFloat32 48000 6))))
          1 (some (some (descriptorOf (.pcmFloat32 48000 1)))),
        .lockForProcess 2 none 1 none, .getInputChannelCount]
      rfl
  exact ⟨_, _, hreach, rfl, surface_of_reaches hreach⟩

end TympanApo.InstanceCom
