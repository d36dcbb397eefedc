import TympanApo.Instance.Concurrent
import TympanApo.Support.Linearization

/-!
# The instance under a realtime reader linearises

Each method takes effect at one of its atomic steps: a lock when its hook has
returned, an unlock with its compare-exchange, `process` when it looks at the
cell, `locked_formats` when it reads the cache.  Taken in that order, the calls
are calls of a serial instance if and only if `process` never looks at a cell
that a lock attempt still holds, and the cache is never read between the return
of a lock hook and the write of the cache, or between the clearing of the cache
and the end of the unlock.
-/

namespace TympanApo.Concurrent

open TympanApo.Realtime
open TympanApo.Support

/-! ## The serial instance -/

/-- A call with what it was answered, of `process` only whether it was
served. -/
inductive Op
  | initializeInstance (result : Except HResult Unit)
  | lockForProcess (formats : LockedFormats) (result : Except HResult Unit)
  | unlockForProcess (result : Except HResult Unit)
  | lockedFormats (value : Option LockedFormats)
  | process (served : Bool)

/-- The cells of an instance. -/
structure Memory where
  state : StateCell
  cache : Option LockedFormats

def Memory.ofInstance {σ : Type} (inst : ApoInstance σ) : Memory where
  state := inst.state
  cache := inst.lockedFormatsCell

/-- The cells of a new instance. -/
def Memory.new : Memory where
  state := StateCell.new
  cache := none

/-- One whole call of a serial instance, around any user object. -/
inductive SerialStep : Memory → Op → Memory → Prop
  | initializeInstance {σ : Type} (inst : ApoInstance σ) :
      SerialStep (.ofInstance inst)
        (.initializeInstance inst.initializeInstance.answer)
        (.ofInstance inst.initializeInstance.inst)
  | lockForProcess {σ : Type} (T : ProcessingObject σ) (inst : ApoInstance σ)
      (input output : Format) :
      SerialStep (.ofInstance inst)
        (.lockForProcess { input, output }
          (inst.lockForProcess T input output).answer)
        (.ofInstance (inst.lockForProcess T input output).inst)
  | unlockForProcess {σ : Type} (T : ProcessingObject σ)
      (inst : ApoInstance σ) :
      SerialStep (.ofInstance inst)
        (.unlockForProcess (inst.unlockForProcess T).answer)
        (.ofInstance (inst.unlockForProcess T).inst)
  | lockedFormats {σ : Type} (inst : ApoInstance σ) :
      SerialStep (.ofInstance inst) (.lockedFormats inst.lockedFormats)
        (.ofInstance inst)
  | process {σ : Type} (T : ProcessingObject σ) (inst : ApoInstance σ)
      (input : ProcessInput) (output : Slice) :
      SerialStep (.ofInstance inst)
        (.process (inst.process T input output).answer.isOk)
        (.ofInstance (inst.process T input output).inst)

/-- The answers a serial instance can give. -/
def Memory.Legal (m : Memory) : Op → Prop
  | .initializeInstance result =>
      result = if m.state.load = .uninitialized then .ok ()
        else .error HResult.apoerrAlreadyLocked
  | .lockForProcess _ result =>
      m.state.load = .initialized ∨
        result = .error (ApoInstance.lockError
          { expected := .initialized
            attempted := .locked
            actual := m.state.load })
  | .unlockForProcess result =>
      result = if m.state.load = .locked then .ok ()
        else .error HResult.apoerrNotLocked
  | .lockedFormats value =>
      value = if m.state.load = .locked then m.cache else none
  | .process served => served = decide (m.state.load = .locked)

/-- The cells after a call. -/
def Memory.after (m : Memory) : Op → Memory
  | .initializeInstance (.ok ()) =>
      { m with state := StateCell.holding .initialized }
  | .lockForProcess formats (.ok ()) =>
      { state := StateCell.holding .locked, cache := some formats }
  | .unlockForProcess (.ok ()) =>
      { state := StateCell.holding .initialized, cache := none }
  | _ => m

/-- An instance with given cells. -/
def Memory.toInstance (m : Memory) : ApoInstance Unit where
  inner := ()
  state := m.state
  refcount := Refcount.new
  lockedFormatsCell := m.cache

/-- A buffer without frames. -/
def silence : Slice where
  addr := 0
  len := 0

/-- A user object whose lock hook gives one answer. -/
def answering (result : Except HResult Unit) : ProcessingObject Unit :=
  { passthrough with lockForProcess := fun user _ _ => (result, user) }

variable {m m' : Memory} {op : Op}

theorem SerialStep.legal (h : SerialStep m op m') :
    m.Legal op ∧ m' = m.after op := by
  cases h with
  | initializeInstance inst =>
      by_cases hload : inst.state.load = .uninitialized
      · rw [ApoInstance.initializeInstance_of_uninitialized hload]
        exact ⟨(if_pos hload).symm, rfl⟩
      · rw [ApoInstance.initializeInstance_of_ne hload]
        exact ⟨(if_neg hload).symm, rfl⟩
  | lockForProcess T inst input output =>
      by_cases hload : inst.state.load = .initialized
      · rcases hhook : T.lockForProcess inst.inner input output with
          ⟨e | _, inner⟩
        · rw [ApoInstance.lockForProcess_of_error hload hhook]
          have hstate : StateCell.holding .initialized = inst.state := by
            rw [← hload]
            exact inst.state.eq_holding_load.symm
          refine ⟨Or.inl hload, ?_⟩
          simp only [Memory.ofInstance, Memory.after, hstate]
        · rw [ApoInstance.lockForProcess_of_ok hload hhook]
          exact ⟨Or.inl hload, rfl⟩
      · rw [ApoInstance.lockForProcess_of_ne input output hload]
        exact ⟨Or.inr rfl, rfl⟩
  | unlockForProcess T inst =>
      by_cases hload : inst.state.load = .locked
      · rw [ApoInstance.unlockForProcess_of_locked hload]
        exact ⟨(if_pos hload).symm, rfl⟩
      · rw [ApoInstance.unlockForProcess_of_ne hload]
        exact ⟨(if_neg hload).symm, rfl⟩
  | lockedFormats inst =>
      refine ⟨?_, rfl⟩
      by_cases hload : inst.state.load = .locked
      · rw [ApoInstance.lockedFormats_of_locked hload]
        exact (if_pos hload).symm
      · rw [ApoInstance.lockedFormats_of_ne hload]
        exact (if_neg hload).symm
  | process T inst input output =>
      by_cases hload : inst.state.load = .locked
      · rw [ApoInstance.process_of_locked input output hload]
        exact ⟨(decide_eq_true hload).symm, rfl⟩
      · rw [ApoInstance.process_of_ne input output hload]
        exact ⟨(decide_eq_false hload).symm, rfl⟩

theorem Memory.Legal.serialStep (h : m.Legal op) :
    SerialStep m op (m.after op) := by
  cases op with
  | initializeInstance result =>
      have hstep := SerialStep.initializeInstance m.toInstance
      by_cases hload : m.state.load = .uninitialized
      · obtain rfl := h.trans (if_pos hload)
        rw [ApoInstance.initializeInstance_of_uninitialized hload] at hstep
        exact hstep
      · obtain rfl := h.trans (if_neg hload)
        rw [ApoInstance.initializeInstance_of_ne hload] at hstep
        exact hstep
  | lockForProcess formats result =>
      have hstep := SerialStep.lockForProcess (answering result) m.toInstance
        formats.input formats.output
      by_cases hload : m.state.load = .initialized
      · cases result with
        | ok =>
            have hhook : (answering (.ok ())).lockForProcess () formats.input
                formats.output = (.ok (), ()) := rfl
            rw [ApoInstance.lockForProcess_of_ok hload hhook] at hstep
            exact hstep
        | error e =>
            have hstate : StateCell.holding .initialized = m.state := by
              rw [← hload]
              exact m.state.eq_holding_load.symm
            have hhook : (answering (.error e)).lockForProcess () formats.input
                formats.output = (.error e, ()) := rfl
            rw [ApoInstance.lockForProcess_of_error hload hhook] at hstep
            simp only [Memory.ofInstance, hstate] at hstep
            exact hstep
      · obtain rfl := h.resolve_left hload
        rw [ApoInstance.lockForProcess_of_ne _ _ hload] at hstep
        exact hstep
  | unlockForProcess result =>
      have hstep := SerialStep.unlockForProcess passthrough m.toInstance
      by_cases hload : m.state.load = .locked
      · obtain rfl := h.trans (if_pos hload)
        rw [ApoInstance.unlockForProcess_of_locked hload] at hstep
        exact hstep
      · obtain rfl := h.trans (if_neg hload)
        rw [ApoInstance.unlockForProcess_of_ne hload] at hstep
        exact hstep
  | lockedFormats value =>
      have hstep := SerialStep.lockedFormats m.toInstance
      by_cases hload : m.state.load = .locked
      · obtain rfl := h.trans (if_pos hload)
        rw [ApoInstance.lockedFormats_of_locked hload] at hstep
        exact hstep
      · obtain rfl := h.trans (if_neg hload)
        rw [ApoInstance.lockedFormats_of_ne hload] at hstep
        exact hstep
  | process served =>
      have hstep := SerialStep.process passthrough m.toInstance
        { samples := silence, flags := .valid } silence
      by_cases hload : m.state.load = .locked
      · obtain rfl := h.trans (decide_eq_true hload)
        rw [ApoInstance.process_of_locked _ _ hload] at hstep
        exact hstep
      · obtain rfl := h.trans (decide_eq_false hload)
        rw [ApoInstance.process_of_ne _ _ hload] at hstep
        exact hstep

theorem serialStep_functional : Functional SerialStep := by
  intro m m₁ m₂ op h₁ h₂
  exact h₁.legal.2.trans h₂.legal.2.symm

/-! ## When a call takes effect -/

/-- The call that takes effect at a step. -/
def effect (s : State) : Action → Option Op
  | .initializeCas =>
      some (.initializeInstance
        (s.state.initializeCell.1.mapError
          fun _ => HResult.apoerrAlreadyLocked))
  | .lockCas input output =>
      match s.state.lock.1 with
      | .error err =>
          some (.lockForProcess { input, output }
            (.error (ApoInstance.lockError err)))
      | .ok () => none
  | .lockHook result =>
      match s.lifecycle with
      | .lockHook formats => some (.lockForProcess formats result)
      | _ => none
  | .lockCache => none
  | .lockRollback => none
  | .unlockLoad =>
      if s.state.load ≠ .locked then
        some (.unlockForProcess (.error HResult.apoerrNotLocked))
      else none
  | .unlockHook => none
  | .unlockClear => none
  | .unlockCas =>
      some (.unlockForProcess
        (s.state.unlock.1.mapError fun _ => HResult.apoerrNotLocked))
  | .formatsLoad =>
      if s.state.load ≠ .locked then some (.lockedFormats none) else none
  | .formatsRead => some (.lockedFormats s.cache)
  | .processLoad => some (.process s.state.isLocked)
  | .processHook _ => none

/-- The serial instance that a state stands for: a lock attempt has not
happened until its hook has returned, an unlock not until its
compare-exchange. -/
def State.memory (s : State) : Memory :=
  match s.lifecycle with
  | .lockHook _ =>
      { state := StateCell.holding .initialized, cache := none }
  | .lockRollback _ =>
      { state := StateCell.holding .initialized, cache := none }
  | .lockCache formats => { state := s.state, cache := some formats }
  | .unlockCas =>
      { state := s.state, cache := s.lock.map LockCall.formats }
  | _ => { state := s.state, cache := s.cache }

/-- Program points at which the cache holds the formats of the serial
instance. -/
def cacheCurrent : LifecyclePc → Bool
  | .lockCache _ => false
  | .unlockCas => false
  | _ => true

/-- The steps that linearise. -/
def Atomic (s : State) : Action → Prop
  | .formatsRead => cacheCurrent s.lifecycle
  | .processLoad => s.state.load = .locked → hookReturned s.lifecycle
  | _ => True

variable {s s' : State} {a : Action} {es : List Event}

/-- A step that takes effect is a serial call, one that does not leaves the
serial instance alone. -/
def Serial (s : State) (op : Option Op) (s' : State) : Prop :=
  match op with
  | none => s'.memory = s.memory
  | some op => s.memory.Legal op ∧ s'.memory = s.memory.after op

theorem Serial.path {op : Option Op} (h : Serial s op s') :
    Path SerialStep s.memory op.toList s'.memory := by
  cases op with
  | none =>
      rw [h]
      exact Path.nil _
  | some op =>
      rw [h.2]
      exact Path.single h.1.serialStep

/-! ## What a state stands for -/

/-- What is kept besides the invariant of the two threads: a cell that is
locked knows its lock. -/
structure WellLocked (s : State) : Prop where
  lock : LockInvariant s
  known : s.state.load = .locked → s.lock.isSome

theorem WellLocked.transition (h : WellLocked s)
    (htransition : Transition s a es s') : WellLocked s' := by
  refine ⟨h.lock.transition htransition, ?_⟩
  cases htransition with
  | initialized hpc hload => simp
  | lockTaken input output hpc hload => simp
  | lockRollback e hpc =>
      have hlock := h.lock
      simp only [LockInvariant, hpc] at hlock
      simp [unlock_of_locked hlock.1]
  | unlockCas result hpc =>
      have hlock := h.lock
      simp only [LockInvariant, hpc] at hlock
      simp [unlock_of_locked hlock.1]
  | _ => exact h.known

theorem wellLocked_of_reaches {H : List Event} (h : machine.Reaches H s) :
    WellLocked s := by
  refine h.invariant (I := fun _ s => WellLocked s) ?_ ?_
  · refine ⟨lockInvariant_new, ?_⟩
    simp [machine, State.new]
  · intro H es s s' a hlocked _ hstep
    exact hlocked.transition (step_transition hstep)

/-- Where no lock is in force the serial instance has the cells as they
are. -/
theorem LockInvariant.memory_of_ne (h : LockInvariant s)
    (hload : s.state.load ≠ .locked) :
    s.memory = { state := s.state, cache := s.cache } := by
  cases hpc : s.lifecycle with
  | idle => simp only [State.memory, hpc]
  | lockHook formats =>
      simp only [LockInvariant, hpc] at h
      exact absurd h.1 hload
  | lockCache formats =>
      simp only [LockInvariant, hpc] at h
      exact absurd h.1 hload
  | lockRollback e =>
      simp only [LockInvariant, hpc] at h
      exact absurd h.1 hload
  | unlockHook => simp only [State.memory, hpc]
  | unlockClear => simp only [State.memory, hpc]
  | unlockCas =>
      simp only [LockInvariant, hpc] at h
      exact absurd h.1 hload

/-! ## What a step does to the serial instance -/

theorem State.memory_of_idle (hpc : s.lifecycle = .idle) :
    s.memory = { state := s.state, cache := s.cache } := by
  simp only [State.memory, hpc]

theorem initializeCas_serial (hpc : s.lifecycle = .idle)
    (hstep : lifecycleStep s .idle .initializeCas = some (s', es)) :
    Serial s (effect s .initializeCas) s' := by
  rw [lifecycleStep] at hstep
  by_cases hload : s.state.load = .uninitialized
  · have hcell : s.state.initializeCell =
        (.ok (), StateCell.holding .initialized) :=
      StateCell.transition_of_load_eq _ hload
    rw [hcell] at hstep
    cases hstep
    rw [effect, hcell, Serial, State.memory_of_idle hpc,
      State.memory_of_idle (by exact hpc)]
    exact ⟨(if_pos hload).symm, rfl⟩
  · have hcell : s.state.initializeCell = (.error _, s.state) :=
      StateCell.transition_of_load_ne .initialized hload
    rw [hcell] at hstep
    cases hstep
    rw [effect, hcell, Serial, State.memory_of_idle hpc]
    exact ⟨(if_neg hload).symm, rfl⟩

theorem WellLocked.lockCas_serial (h : WellLocked s)
    (hpc : s.lifecycle = .idle) {input output : Format}
    (hstep : lifecycleStep s .idle (.lockCas input output) = some (s', es)) :
    Serial s (effect s (.lockCas input output)) s' := by
  rw [lifecycleStep] at hstep
  by_cases hload : s.state.load = .initialized
  · have hcell : s.state.lock = (.ok (), StateCell.holding .locked) :=
      StateCell.transition_of_load_eq _ hload
    have hcache : s.cache = none := by
      rcases h.lock.idle hpc with ⟨hlocked, -⟩ | ⟨-, hcache⟩
      · exact absurd (hload.symm.trans hlocked) (by decide)
      · exact hcache
    have hstate : StateCell.holding .initialized = s.state := by
      rw [← hload]
      exact s.state.eq_holding_load.symm
    rw [hcell] at hstep
    cases hstep
    rw [effect, hcell, Serial, State.memory_of_idle hpc, hcache, ← hstate]
    rfl
  · have hcell : s.state.lock = (.error _, s.state) :=
      StateCell.transition_of_load_ne .locked hload
    rw [hcell] at hstep
    cases hstep
    rw [effect, hcell, Serial, State.memory_of_idle hpc]
    exact ⟨Or.inr rfl, rfl⟩

/-- A step of the lifecycle thread is serial. -/
theorem WellLocked.lifecycle_serial (h : WellLocked s)
    (hstep : lifecycleStep s s.lifecycle a = some (s', es)) :
    Serial s (effect s a) s' := by
  have hlock := h.lock
  have hwhole := hstep
  unfold lifecycleStep at hstep
  split at hstep
  next hpc =>
    rw [hpc] at hwhole
    exact initializeCas_serial hpc hwhole
  next input output hpc =>
    rw [hpc] at hwhole
    exact h.lockCas_serial hpc hwhole
  next formats result hpc =>
    simp only [LockInvariant, hpc] at hlock
    have hstate : s.state = StateCell.holding .locked := by
      rw [← hlock.1]
      exact s.state.eq_holding_load
    simp only [effect, Serial, hpc]
    cases result with
    | ok =>
        cases hstep
        simp only [State.memory, hpc, hstate]
        exact ⟨Or.inl (StateCell.load_holding _), rfl⟩
    | error e =>
        cases hstep
        simp only [State.memory, hpc]
        exact ⟨Or.inl (StateCell.load_holding _), rfl⟩
  next formats hpc =>
    cases hstep
    simp only [effect, Serial, State.memory, hpc]
  next e hpc =>
    simp only [LockInvariant, hpc] at hlock
    cases hstep
    simp only [effect, Serial, State.memory, hpc, unlock_of_locked hlock.1,
      hlock.2.2]
  next hpc =>
    split at hstep
    next hload =>
      cases hstep
      simp only [effect, Serial, if_pos hload]
      refine ⟨?_, rfl⟩
      rw [hlock.memory_of_ne hload]
      exact (if_neg hload).symm
    next hload =>
      cases hstep
      simp only [effect, Serial, if_neg hload, State.memory, hpc]
  next hpc =>
    cases hstep
    simp only [effect, Serial, State.memory, hpc]
  next hpc =>
    simp only [LockInvariant, hpc] at hlock
    cases hstep
    simp only [effect, Serial, State.memory, hpc, hlock.2.2.1]
  next hpc =>
    simp only [LockInvariant, hpc] at hlock
    have hcell := unlock_of_locked hlock.1
    rw [hcell] at hstep
    cases hstep
    simp only [effect, Serial, hcell, State.memory, hpc, hlock.2.2]
    exact ⟨(if_pos hlock.1).symm, rfl⟩
  next => cases hstep

/-- The cache can be read as what `locked_formats` answers except where it is
behind the serial instance. -/
theorem WellLocked.legal_lockedFormats_iff (h : WellLocked s) :
    s.memory.Legal (.lockedFormats s.cache) ↔ cacheCurrent s.lifecycle := by
  have hlock := h.lock
  cases hpc : s.lifecycle with
  | idle =>
      rw [State.memory_of_idle hpc]
      refine iff_of_true ?_ rfl
      rcases hlock.idle hpc with ⟨hload, -⟩ | ⟨hload, hcache⟩
      · exact (if_pos hload).symm
      · rw [hcache]
        exact (if_neg hload).symm
  | lockHook formats =>
      simp only [LockInvariant, hpc] at hlock
      refine iff_of_true ?_ rfl
      rw [hlock.2.2.2, State.memory, hpc]
      exact (ite_self none).symm
  | lockCache formats =>
      simp only [LockInvariant, hpc] at hlock
      refine iff_of_false ?_ Bool.false_ne_true
      rw [hlock.2.2.2, State.memory, hpc]
      intro hlegal
      cases hlegal.trans (if_pos hlock.1)
  | lockRollback e =>
      simp only [LockInvariant, hpc] at hlock
      refine iff_of_true ?_ rfl
      rw [hlock.2.2, State.memory, hpc]
      exact (ite_self none).symm
  | unlockHook =>
      simp only [LockInvariant, hpc] at hlock
      refine iff_of_true ?_ rfl
      rw [State.memory, hpc]
      exact (if_pos hlock.1).symm
  | unlockClear =>
      simp only [LockInvariant, hpc] at hlock
      refine iff_of_true ?_ rfl
      rw [State.memory, hpc]
      exact (if_pos hlock.1).symm
  | unlockCas =>
      simp only [LockInvariant, hpc] at hlock
      refine iff_of_false ?_ Bool.false_ne_true
      rw [hlock.2.2, State.memory, hpc]
      intro hlegal
      have hnone : none = s.lock.map LockCall.formats :=
        hlegal.trans (if_pos hlock.1)
      have hknown := h.known hlock.1
      rw [← Option.isSome_map, ← hnone] at hknown
      cases hknown

/-- `process` is answered as the serial instance would unless a lock attempt
holds the cell. -/
theorem WellLocked.legal_process_iff (h : WellLocked s) :
    s.memory.Legal (.process s.state.isLocked) ↔
      (s.state.load = .locked → hookReturned s.lifecycle) := by
  have hlock := h.lock
  by_cases hload : s.state.load = .locked
  · have hserved : s.state.isLocked = true := by
      simp [StateCell.isLocked, hload]
    have hheld : ¬ true = decide ((StateCell.holding State.initialized).load =
        State.locked) := by
      simp
    rw [hserved, forall_prop_of_true hload]
    cases hpc : s.lifecycle with
    | idle =>
        rw [State.memory_of_idle hpc]
        exact iff_of_true (decide_eq_true hload).symm rfl
    | lockHook formats =>
        rw [State.memory, hpc]
        exact iff_of_false hheld Bool.false_ne_true
    | lockCache formats =>
        rw [State.memory, hpc]
        exact iff_of_true (decide_eq_true hload).symm rfl
    | lockRollback e =>
        rw [State.memory, hpc]
        exact iff_of_false hheld Bool.false_ne_true
    | unlockHook =>
        rw [State.memory, hpc]
        exact iff_of_true (decide_eq_true hload).symm rfl
    | unlockClear =>
        rw [State.memory, hpc]
        exact iff_of_true (decide_eq_true hload).symm rfl
    | unlockCas =>
        rw [State.memory, hpc]
        exact iff_of_true (decide_eq_true hload).symm rfl
  · have hserved : s.state.isLocked = false := by
      simp [StateCell.isLocked, hload]
    rw [hserved, hlock.memory_of_ne hload]
    exact iff_of_true (decide_eq_false hload).symm fun h => absurd h hload

/-- What a step of the realtime thread reads is legal if and only if the step
linearises; it writes nothing of the serial instance. -/
theorem WellLocked.realtime_legal_iff (h : WellLocked s)
    (hstep : realtimeStep s s.realtime a = some (s', es)) :
    s'.memory = s.memory ∧
      (∀ op, effect s a = some op → s.memory.after op = s.memory) ∧
      ((∀ op, effect s a = some op → s.memory.Legal op) ↔ Atomic s a) := by
  unfold realtimeStep at hstep
  split at hstep
  next =>
    split at hstep
    next hload =>
      cases hstep
      rw [effect, if_pos hload]
      refine ⟨rfl, ?_, iff_of_true ?_ trivial⟩
      · rintro op ⟨⟩
        rfl
      · rintro op ⟨⟩
        rw [h.lock.memory_of_ne hload]
        exact (if_neg hload).symm
    next hload =>
      cases hstep
      rw [effect, if_neg hload]
      exact ⟨rfl, nofun, iff_of_true nofun trivial⟩
  next observed _ =>
    cases hstep
    refine ⟨rfl, ?_, ?_⟩
    · rintro op ⟨⟩
      rfl
    · rw [Atomic, ← h.legal_lockedFormats_iff]
      constructor
      · intro hlegal
        exact hlegal _ rfl
      · rintro hlegal op ⟨⟩
        exact hlegal
  next =>
    have hafter : ∀ op, effect s .processLoad = some op →
        s.memory.after op = s.memory := by
      rintro op ⟨⟩
      rfl
    have hatomic : (∀ op, effect s .processLoad = some op →
        s.memory.Legal op) ↔ Atomic s .processLoad := by
      rw [Atomic, ← h.legal_process_iff]
      constructor
      · intro hlegal
        exact hlegal _ rfl
      · rintro hlegal op ⟨⟩
        exact hlegal
    split at hstep <;> cases hstep <;> exact ⟨rfl, hafter, hatomic⟩
  next flags _ =>
    cases hstep
    exact ⟨rfl, nofun, iff_of_true nofun trivial⟩
  next => cases hstep

/-- A step of the realtime thread that linearises is serial. -/
theorem WellLocked.realtime_serial (h : WellLocked s)
    (hstep : realtimeStep s s.realtime a = some (s', es))
    (hatomic : Atomic s a) : Serial s (effect s a) s' := by
  obtain ⟨hmemory, hafter, hlegal⟩ := h.realtime_legal_iff hstep
  rw [← hlegal] at hatomic
  cases heffect : effect s a with
  | none => exact hmemory
  | some op =>
      refine ⟨hatomic op heffect, ?_⟩
      rw [hmemory, hafter op heffect]

/-- Every step of the lifecycle thread linearises. -/
theorem atomic_of_lifecycleStep {pc : LifecyclePc}
    (hstep : lifecycleStep s pc a = some (s', es)) : Atomic s a := by
  cases a with
  | formatsRead => cases pc <;> cases hstep
  | processLoad => cases pc <;> cases hstep
  | _ => trivial

/-! ## Answers -/

/-- What a thread is answered. -/
inductive Answer
  | initialized (result : Except HResult Unit)
  | locked (result : Except HResult Unit)
  | unlocked (result : Except HResult Unit)
  | formats (value : Option LockedFormats)
  | served (served : Bool)

/-- What a return answers the lifecycle thread. -/
def Event.toLifecycle : Event → Option Answer
  | .initializeReturned result => some (.initialized result)
  | .lockReturned result => some (.locked result)
  | .unlockReturned result => some (.unlocked result)
  | _ => none

/-- What a return answers the realtime thread. -/
def Event.toRealtime : Event → Option Answer
  | .formatsNotLocked => some (.formats none)
  | .formatsReturned _ _ value => some (.formats value)
  | .processReturned result => some (.served result.isOk)
  | _ => none

/-- What a call that takes effect answers the lifecycle thread. -/
def Op.toLifecycle : Op → Option Answer
  | .initializeInstance result => some (.initialized result)
  | .lockForProcess _ result => some (.locked result)
  | .unlockForProcess result => some (.unlocked result)
  | _ => none

/-- What a call that takes effect answers the realtime thread. -/
def Op.toRealtime : Op → Option Answer
  | .lockedFormats value => some (.formats value)
  | .process served => some (.served served)
  | _ => none

/-- The answer the lifecycle thread is about to be given. -/
def State.dueLifecycle (s : State) : List Answer :=
  match s.lifecycle with
  | .lockCache _ => [.locked (.ok ())]
  | .lockRollback e => [.locked (.error e)]
  | _ => []

/-- The answer the realtime thread is about to be given. -/
def State.dueRealtime (s : State) : List Answer :=
  match s.realtime with
  | .processHook => [.served true]
  | _ => []

/-- What is returned is what took effect, at once or before. -/
structure Answers (s : State) (op : Option Op) (es : List Event) (s' : State) :
    Prop where
  lifecycle : s.dueLifecycle ++ op.toList.filterMap Op.toLifecycle =
    es.filterMap Event.toLifecycle ++ s'.dueLifecycle
  realtime : s.dueRealtime ++ op.toList.filterMap Op.toRealtime =
    es.filterMap Event.toRealtime ++ s'.dueRealtime

theorem lifecycleStep_answers
    (hstep : lifecycleStep s s.lifecycle a = some (s', es)) :
    Answers s (effect s a) es s' := by
  unfold lifecycleStep at hstep
  split at hstep
  next hpc =>
    rcases hcell : s.state.initializeCell with ⟨result, cell⟩
    rw [hcell] at hstep
    cases hstep
    refine ⟨?_, List.append_nil _⟩
    rw [effect, hcell]
    simp [State.dueLifecycle, hpc, Op.toLifecycle, Event.toLifecycle]
  next input output hpc =>
    rcases hcell : s.state.lock with ⟨e | _, cell⟩
    · rw [hcell] at hstep
      cases hstep
      rw [effect, hcell]
      refine ⟨?_, List.append_nil _⟩
      simp [State.dueLifecycle, hpc, Op.toLifecycle, Event.toLifecycle]
    · rw [hcell] at hstep
      cases hstep
      rw [effect, hcell]
      refine ⟨?_, List.append_nil _⟩
      simp [State.dueLifecycle, hpc]
  next formats result hpc =>
    cases hstep
    rw [effect, hpc]
    refine ⟨?_, List.append_nil _⟩
    cases result with
    | ok => simp [State.dueLifecycle, hpc, Op.toLifecycle]
    | error e => simp [State.dueLifecycle, hpc, Op.toLifecycle]
  next formats hpc =>
    cases hstep
    refine ⟨?_, List.append_nil _⟩
    simp [State.dueLifecycle, hpc, effect, Event.toLifecycle]
  next e hpc =>
    cases hstep
    refine ⟨?_, List.append_nil _⟩
    simp [State.dueLifecycle, hpc, effect, Event.toLifecycle]
  next hpc =>
    split at hstep
    next hload =>
      cases hstep
      rw [effect, if_pos hload]
      refine ⟨?_, List.append_nil _⟩
      simp [State.dueLifecycle, hpc, Op.toLifecycle, Event.toLifecycle]
    next hload =>
      cases hstep
      rw [effect, if_neg hload]
      refine ⟨?_, List.append_nil _⟩
      simp [State.dueLifecycle, hpc]
  next hpc =>
    cases hstep
    refine ⟨?_, List.append_nil _⟩
    simp [State.dueLifecycle, hpc, effect]
  next hpc =>
    cases hstep
    refine ⟨?_, List.append_nil _⟩
    simp [State.dueLifecycle, hpc, effect]
  next hpc =>
    rcases hcell : s.state.unlock with ⟨result, cell⟩
    rw [hcell] at hstep
    cases hstep
    refine ⟨?_, List.append_nil _⟩
    rw [effect, hcell]
    simp [State.dueLifecycle, hpc, Op.toLifecycle, Event.toLifecycle]
  next => cases hstep

theorem realtimeStep_answers
    (hstep : realtimeStep s s.realtime a = some (s', es)) :
    Answers s (effect s a) es s' := by
  unfold realtimeStep at hstep
  split at hstep
  next hpc =>
    split at hstep
    next hload =>
      cases hstep
      rw [effect, if_pos hload]
      refine ⟨List.append_nil _, ?_⟩
      simp [State.dueRealtime, hpc, Op.toRealtime, Event.toRealtime]
    next hload =>
      cases hstep
      rw [effect, if_neg hload]
      refine ⟨List.append_nil _, ?_⟩
      simp [State.dueRealtime, hpc]
  next observed hpc =>
    cases hstep
    refine ⟨List.append_nil _, ?_⟩
    simp [State.dueRealtime, hpc, effect, Op.toRealtime, Event.toRealtime]
  next hpc =>
    split at hstep
    next hload =>
      cases hstep
      have hserved : s.state.isLocked = false := by simpa using hload
      rw [effect, hserved]
      refine ⟨List.append_nil _, ?_⟩
      simp [State.dueRealtime, hpc, Op.toRealtime, Event.toRealtime,
        Except.isOk, Except.toBool]
    next hload =>
      cases hstep
      have hserved : s.state.isLocked = true := by simpa using hload
      rw [effect, hserved]
      refine ⟨List.append_nil _, ?_⟩
      rw [State.dueRealtime, hpc]
      rfl
  next flags hpc =>
    cases hstep
    refine ⟨List.append_nil _, ?_⟩
    simp [State.dueRealtime, hpc, effect, Event.toRealtime, Except.isOk,
      Except.toBool]
  next => cases hstep

/-- A step is one of the two threads. -/
theorem step_cases (hstep : machine.step s a = some (s', es)) :
    lifecycleStep s s.lifecycle a = some (s', es) ∨
      realtimeStep s s.realtime a = some (s', es) :=
  (Option.or_eq_some_iff.mp hstep).imp_right And.right

theorem step_answers (hstep : machine.step s a = some (s', es)) :
    Answers s (effect s a) es s' := by
  rcases step_cases hstep with hlifecycle | hrealtime
  · exact lifecycleStep_answers hlifecycle
  · exact realtimeStep_answers hrealtime

/-! ## Every run -/

/-- For every interleaving: both threads are answered what their calls answer
as they take effect, and the calls are those of a serial instance if and only
if every step of the run linearises. -/
theorem run_atomic_iff {H : List (Stamp Event Op)}
    (h : (machine.stamped effect).Reaches H s) :
    (Stamp.effects H).filterMap Op.toLifecycle =
        (Stamp.returns H).filterMap Event.toLifecycle ++ s.dueLifecycle ∧
      (Stamp.effects H).filterMap Op.toRealtime =
        (Stamp.returns H).filterMap Event.toRealtime ++ s.dueRealtime ∧
      ((machine.stamped effect).Run Atomic H s ↔
        ∃ m, Path SerialStep Memory.new (Stamp.effects H) m) := by
  refine ⟨?_, ?_, ?_⟩
  · exact Machine.answers_agree rfl
      (fun _ hstep => (step_answers hstep).lifecycle) h
  · exact Machine.answers_agree rfl
      (fun _ hstep => (step_answers hstep).realtime) h
  · refine Machine.run_iff_linearises State.memory
      serialStep_functional ?_ ?_ h
    · intro K es s s' a hreach hstep hatomic
      have hlocked := wellLocked_of_reaches hreach
      rcases step_cases hstep with hlifecycle | hrealtime
      · exact (hlocked.lifecycle_serial hlifecycle).path
      · exact (hlocked.realtime_serial hrealtime hatomic).path
    · intro K es s s' a m hreach hstep hpath
      have hlocked := wellLocked_of_reaches hreach
      rcases step_cases hstep with hlifecycle | hrealtime
      · exact atomic_of_lifecycleStep hlifecycle
      · refine (hlocked.realtime_legal_iff hrealtime).2.2.mp ?_
        intro op hop
        rw [hop] at hpath
        exact hpath.of_single.legal.1

/-- A buffer is processed before the lock returns, and the formats are read
while an unlock is under way; the run linearises all the same. -/
theorem run_atomic_overlapping :
    ∃ m, Path SerialStep Memory.new
      [.initializeInstance (.ok ()),
        .lockForProcess ⟨.pcmFloat32 48000 2, .pcmFloat32 48000 2⟩ (.ok ()),
        .process true,
        .lockedFormats (some ⟨.pcmFloat32 48000 2, .pcmFloat32 48000 2⟩),
        .unlockForProcess (.ok ())] m := by
  have h₀ : (machine.stamped effect).Run Atomic [] State.new :=
    Machine.Run.start
  have h₁ := h₀.next (a := Action.initializeCas) trivial rfl
  have h₂ := h₁.next
    (a := Action.lockCas (.pcmFloat32 48000 2) (.pcmFloat32 48000 2)) trivial rfl
  have h₃ := h₂.next (a := Action.lockHook (.ok ())) trivial rfl
  have h₄ := h₃.next (a := Action.processLoad) (fun _ => rfl) rfl
  have h₅ := h₄.next (a := Action.processHook .valid) trivial rfl
  have h₆ := h₅.next (a := Action.lockCache) trivial rfl
  have h₇ := h₆.next (a := Action.unlockLoad) trivial rfl
  have h₈ := h₇.next (a := Action.formatsLoad) trivial rfl
  have h₉ := h₈.next (a := Action.formatsRead) rfl rfl
  have hunlocking := h₉.next (a := Action.unlockHook) trivial rfl
  have hcleared := hunlocking.next (a := Action.unlockClear) trivial rfl
  have hrun := hcleared.next (a := Action.unlockCas) trivial rfl
  exact (run_atomic_iff hrun.reaches).2.2.mp hrun

end TympanApo.Concurrent
