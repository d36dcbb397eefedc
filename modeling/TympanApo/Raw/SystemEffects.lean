import TympanApo.Instance

/-!
# Toggling system effects

The dispatch body of `SetAudioSystemEffectState` in `raw/dispatch.rs`.  The
trait promises a user's hook to be reached only for an effect advertised as
controllable; the body looks for the id among all advertised effects.
-/

namespace TympanApo.Dispatch

variable {σ : Type*}

/-- `AUDIO_SYSTEMEFFECT_STATE`. -/
structure AudioSystemEffectState where
  val : Int32
  deriving DecidableEq, Repr

namespace AudioSystemEffectState

def off : AudioSystemEffectState := ⟨0⟩

def on : AudioSystemEffectState := ⟨1⟩

end AudioSystemEffectState

/-- The `match` that carries a state value across the bridge. -/
def crossState (state : AudioSystemEffectState) : Option SystemEffectState :=
  if state = .off then some .off
  else if state = .on then some .on
  else none

/-- `set_audio_system_effect_state`. -/
def setAudioSystemEffectState (T : ProcessingObject σ)
    (self : ApoInstance σ) (effectid : Guid)
    (state : AudioSystemEffectState) : Effect σ (Except ComError Unit) :=
  let requested := Clsid.ofGuid effectid
  let effects := self.systemEffects T
  if !(effects.answer.any fun e => e.id == requested) then
    { answer := .error
        { code := HResult.eInvalidarg
          message := "SetAudioSystemEffectState: unknown effect id" }
      inst := effects.inst
      hooks := effects.hooks }
  else
    match crossState state with
    | none =>
        { answer := .error
            { code := HResult.eInvalidarg
              message := "SetAudioSystemEffectState: unknown state value " ++
                toString state.val.toInt }
          inst := effects.inst
          hooks := effects.hooks }
    | some cross =>
        let toggled := effects.inst.setSystemEffectState T requested cross
        { answer := .ok ()
          inst := toggled.inst
          hooks := effects.hooks ++ toggled.hooks }

/-! ## What the body does -/

/-- The effects advertised at the call. -/
def advertised (T : ProcessingObject σ) (self : ApoInstance σ) :
    List SystemEffect :=
  (T.systemEffects self.inner).1

variable {T : ProcessingObject σ} {self : ApoInstance σ} {effectid : Guid}
    {state : AudioSystemEffectState}

/-- Some advertised effect has the requested id. -/
def Known (T : ProcessingObject σ) (self : ApoInstance σ)
    (effectid : Guid) : Prop :=
  ∃ e ∈ advertised T self, e.id = Clsid.ofGuid effectid

/-- Some advertised effect with the requested id is controllable. -/
def Controllable (T : ProcessingObject σ) (self : ApoInstance σ)
    (effectid : Guid) : Prop :=
  ∃ e ∈ advertised T self,
    e.id = Clsid.ofGuid effectid ∧ e.controllable = true

theorem Controllable.known (h : Controllable T self effectid) :
    Known T self effectid := by
  obtain ⟨e, hmem, hid, -⟩ := h
  exact ⟨e, hmem, hid⟩

theorem any_id_iff :
    ((self.systemEffects T).answer.any fun e =>
      e.id == Clsid.ofGuid effectid) = true ↔ Known T self effectid := by
  simp [Known, advertised, ApoInstance.systemEffects]

/-- A known id and a known state reach the hook. -/
theorem setAudioSystemEffectState_of_known {cross : SystemEffectState}
    (hknown : Known T self effectid) (hstate : crossState state = some cross) :
    setAudioSystemEffectState T self effectid state =
      { answer := .ok ()
        inst :=
          { self with
            inner := T.setSystemEffectState (T.systemEffects self.inner).2
              (Clsid.ofGuid effectid) cross }
        hooks := [.systemEffects (advertised T self),
          .setSystemEffectState (Clsid.ofGuid effectid) cross] } := by
  simp only [setAudioSystemEffectState, any_id_iff.mpr hknown, hstate]
  rfl

/-- Any other request is refused after the query. -/
theorem setAudioSystemEffectState_of_not
    (h : ¬ Known T self effectid ∨ crossState state = none) :
    ∃ e, e.code = HResult.eInvalidarg ∧
      setAudioSystemEffectState T self effectid state =
        { answer := .error e
          inst := { self with inner := (T.systemEffects self.inner).2 }
          hooks := [.systemEffects (advertised T self)] } := by
  by_cases hknown : Known T self effectid
  · have hstate := h.resolve_left (not_not_intro hknown)
    simp only [setAudioSystemEffectState, any_id_iff.mpr hknown, hstate]
    exact ⟨_, rfl, rfl⟩
  · have hany := Bool.eq_false_iff.mpr (mt any_id_iff.mp hknown)
    simp only [setAudioSystemEffectState, hany]
    exact ⟨_, rfl, rfl⟩

/-! ## The promise to the user's object -/

/-- The hook is reached exactly for controllable effects and known states,
and any other request is refused. -/
structure GateKept (T : ProcessingObject σ) (before : ApoInstance σ)
    (effectid : Guid) (state : AudioSystemEffectState) : Prop where
  /-- A permitted request is answered by `Ok` and runs the hook once, with its
  id and state, on the user's object as the query leaves it. -/
  reached : ∀ cross, Controllable T before effectid →
    crossState state = some cross →
      setAudioSystemEffectState T before effectid state =
        { answer := .ok ()
          inst :=
            { before with
              inner := T.setSystemEffectState (T.systemEffects before.inner).2
                (Clsid.ofGuid effectid) cross }
          hooks := [.systemEffects (advertised T before),
            .setSystemEffectState (Clsid.ofGuid effectid) cross] }
  /-- Any other request runs the query alone and is refused; the user's object
  is as the query leaves it. -/
  refused : ¬ (Controllable T before effectid ∧ crossState state ≠ none) →
    let e := setAudioSystemEffectState T before effectid state
    e.hooks = [.systemEffects (advertised T before)] ∧
      (∃ err, e.answer = .error err ∧ err.code = HResult.eInvalidarg) ∧
      e.inst = { before with inner := (T.systemEffects before.inner).2 } ∧
      ((T.systemEffects before.inner).2 = before.inner → e.inst = before)

/-- A known effect is controllable, or the state is no known one. -/
def GateHolds (T : ProcessingObject σ) (self : ApoInstance σ)
    (effectid : Guid) (state : AudioSystemEffectState) : Prop :=
  Controllable T self effectid ∨ ¬ Known T self effectid ∨
    (state ≠ .off ∧ state ≠ .on)

theorem crossState_eq_none_iff (state : AudioSystemEffectState) :
    crossState state = none ↔ state ≠ .off ∧ state ≠ .on := by
  unfold crossState
  split
  next hoff => simp [hoff]
  next hoff =>
    split
    next hon => simp [hon]
    next hon => simp [hoff, hon]

theorem inst_of_pure_systemEffects
    (h : (T.systemEffects self.inner).2 = self.inner) :
    { self with inner := (T.systemEffects self.inner).2 } = self := by
  rw [h]

/-- The promise is kept if and only if the request does not toggle an effect
that is advertised, but never as controllable. -/
theorem gateKept_iff (T : ProcessingObject σ) (self : ApoInstance σ)
    (effectid : Guid) (state : AudioSystemEffectState) :
    GateKept T self effectid state ↔ GateHolds T self effectid state := by
  constructor
  · intro hkept
    by_contra hholds
    simp only [GateHolds, not_or, not_not, ← crossState_eq_none_iff]
      at hholds
    obtain ⟨hcontrollable, hknown, hstate⟩ := hholds
    obtain ⟨cross, hcross⟩ := Option.ne_none_iff_exists'.mp hstate
    have hhooks := (hkept.refused fun h => hcontrollable h.1).1
    rw [setAudioSystemEffectState_of_known hknown hcross] at hhooks
    simp at hhooks
  · intro hholds
    constructor
    · intro cross hcontrollable hcross
      exact setAudioSystemEffectState_of_known hcontrollable.known hcross
    · intro hnot
      have hrefused : ¬ Known T self effectid ∨ crossState state = none := by
        rcases hholds with hcontrollable | hunknown | hstate
        · right
          by_contra hstate
          exact hnot ⟨hcontrollable, hstate⟩
        · exact .inl hunknown
        · exact .inr ((crossState_eq_none_iff state).mpr hstate)
      obtain ⟨e, hcode, heffect⟩ := setAudioSystemEffectState_of_not hrefused
      rw [heffect]
      exact ⟨rfl, ⟨e, rfl, hcode⟩, rfl, inst_of_pure_systemEffects⟩

/-- An APO that advertises one effect the engine must not toggle. -/
def fixedEffect : ProcessingObject Unit :=
  { passthrough with
    systemEffects := fun user =>
      ([{ id := passthrough.clsid, controllable := false, state := .on }],
        user) }

/-- Switching that effect off runs the hook. -/
theorem not_gateKept_fixedEffect :
    (setAudioSystemEffectState fixedEffect (.new fixedEffect)
        passthrough.clsid.toGuid .off).hooks =
      [.systemEffects (advertised fixedEffect (.new fixedEffect)),
        .setSystemEffectState passthrough.clsid .off] ∧
      ¬ GateKept fixedEffect (.new fixedEffect) passthrough.clsid.toGuid
        .off := by
  refine ⟨rfl, ?_⟩
  intro hkept
  have hnot : ¬ Controllable fixedEffect (.new fixedEffect)
      passthrough.clsid.toGuid := by
    rintro ⟨e, hmem, -, hcontrollable⟩
    rw [List.mem_singleton.mp hmem] at hcontrollable
    cases hcontrollable
  have hhooks := (hkept.refused fun h => hnot h.1).1
  cases hhooks

end TympanApo.Dispatch
