import TympanApo.Instance
import TympanApo.Support.Session

/-!
# The lifecycle of one instance

Serial runs of method calls on one `ApoInstance`.  A run records the user
hooks it ran and what every call returned.  The instance refines the protocol
of a started resource: `initialize` starts it, a lock hook that succeeds
acquires it with the formats it was given, the unlock hook releases it, and
the cached formats are the payload of the session held.
-/

namespace TympanApo.Lifecycle

open TympanApo.Realtime
open TympanApo.Support

/-! ## Calls and runs -/

/-- A call of a method of the instance. -/
inductive Call
  | initializeInstance
  | isInputFormatSupported (format : Format)
  | isOutputFormatSupported (format : Format)
  | lockForProcess (input output : Format)
  | unlockForProcess
  | lockedFormats
  | process (input : ProcessInput) (output : Slice)
  | systemEffects
  | setSystemEffectState (id : Clsid) (state : SystemEffectState)
  | addRef
  | release

/-- What a call returned. -/
inductive Answer
  | result (r : Except HResult Unit)
  | negotiation (n : FormatNegotiation)
  | formats (f : Option LockedFormats)
  | flags (r : Except HResult BufferFlags)
  | effects (es : List SystemEffect)
  | count (n : UInt32)
  | unit

/-- The error a call returned, if it returned one. -/
def Answer.err? : Answer → Option HResult
  | result (.error e) => some e
  | flags (.error e) => some e
  | _ => none

variable {σ : Type*}

/-- Perform a call. -/
def perform (T : ProcessingObject σ) (self : ApoInstance σ) :
    Call → Effect σ Answer
  | .initializeInstance => self.initializeInstance.map .result
  | .isInputFormatSupported f =>
      (self.isInputFormatSupported T f).map .negotiation
  | .isOutputFormatSupported f =>
      (self.isOutputFormatSupported T f).map .negotiation
  | .lockForProcess input output =>
      (self.lockForProcess T input output).map .result
  | .unlockForProcess => (self.unlockForProcess T).map .result
  | .lockedFormats =>
      { answer := .formats self.lockedFormats, inst := self, hooks := [] }
  | .process input output => (self.process T input output).map .flags
  | .systemEffects => (self.systemEffects T).map .effects
  | .setSystemEffectState id state =>
      (self.setSystemEffectState T id state).map fun _ => .unit
  | .addRef => self.addRef.map .count
  | .release => self.release.map .count

/-- What a run records: the hooks run and the calls returned from. -/
inductive Event
  | hook (h : HookCall)
  | returned (call : Call) (answer : Answer)

/-- The events of one call. -/
def events (call : Call) (e : Effect σ Answer) : List Event :=
  e.hooks.map .hook ++ [.returned call e.answer]

/-- Any number of calls on a new instance, one after the other. -/
def machine (T : ProcessingObject σ) : Machine (ApoInstance σ) Call Event where
  init := ApoInstance.new T
  step self call :=
    some ((perform T self call).inst, events call (perform T self call))

/-! ## The history as a sequence of sessions -/

/-- What an event does to the session protocol. -/
def sessionOp : Event → Option (Session.Op LockedFormats)
  | .returned .initializeInstance (.result (.ok ())) => some .start
  | .hook (.lockForProcess input output (.ok ())) =>
      some (.acquire { input, output })
  | .hook (.lockForProcess _ _ (.error _)) => some .refuse
  | .hook (.process _ _ _) => some .use
  | .hook .unlockForProcess => some .release
  | _ => none

/-- Number of `initialize` calls that succeeded. -/
def initializations (H : List Event) : ℕ :=
  Session.starts (H.filterMap sessionOp)

/-- Number of lock hooks that returned `Ok`. -/
def lockHooks (H : List Event) : ℕ :=
  (Session.acquired (H.filterMap sessionOp)).length

/-- Number of unlock hooks run. -/
def unlockHooks (H : List Event) : ℕ :=
  Session.releases (H.filterMap sessionOp)

/-- The arguments of a `lock_for_process` call that returned `Ok`. -/
def lockArguments : Event → Option LockedFormats
  | .returned (.lockForProcess input output) (.result (.ok ())) =>
      some { input, output }
  | _ => none

/-- The arguments of the successful `lock_for_process` calls, in order. -/
def successfulLocks (H : List Event) : List LockedFormats :=
  H.filterMap lockArguments

/-- What the history must be when an event is recorded.  The `n`-th unlock
hook is preceded by exactly `n` successful lock hooks, which pairs it with the
`n`-th of them. -/
def HookAllowed (H : List Event) : Event → Prop
  | .returned .initializeInstance (.result (.ok ())) => initializations H = 0
  | .hook (.lockForProcess _ _ _) =>
      initializations H = 1 ∧ lockHooks H = unlockHooks H
  | .hook (.process _ _ _) => lockHooks H = unlockHooks H + 1
  | .hook .unlockForProcess => lockHooks H = unlockHooks H + 1
  | _ => True

theorem hookAllowed_of_session {H : List Event} {e : Event}
    (h : ∀ op, sessionOp e = some op →
      Session.Allowed (H.filterMap sessionOp) op) : HookAllowed H e := by
  unfold HookAllowed
  split
  next => exact h .start rfl
  next input output result =>
    cases result with
    | ok => exact h (.acquire { input, output }) rfl
    | error => exact h .refuse rfl
  next => exact h .use rfl
  next => exact h .release rfl
  next => trivial

/-! ## The ways a call can go -/

/-- The ways a call can take an instance to another, with the events it
records and the error it returns. -/
inductive Outcome (self self' : ApoInstance σ) (es : List Event)
    (err : Option HResult) : Prop
  | quiet (hstate : self'.state = self.state)
      (hcell : self'.lockedFormatsCell = self.lockedFormatsCell)
      (hops : es.filterMap sessionOp = [])
      (hlocks : es.filterMap lockArguments = [])
  | started (hload : self.state.load = .uninitialized)
      (hload' : self'.state.load = .initialized)
      (hcell : self'.lockedFormatsCell = self.lockedFormatsCell)
      (hops : es.filterMap sessionOp = [.start])
      (hlocks : es.filterMap lockArguments = []) (herr : err = none)
  | acquired (formats : LockedFormats) (hload : self.state.load = .initialized)
      (hload' : self'.state.load = .locked)
      (hcell : self'.lockedFormatsCell = some formats)
      (hops : es.filterMap sessionOp = [.acquire formats])
      (hlocks : es.filterMap lockArguments = [formats]) (herr : err = none)
  | refused (hload : self.state.load = .initialized)
      (hstate : self'.state = self.state)
      (hcell : self'.lockedFormatsCell = self.lockedFormatsCell)
      (hops : es.filterMap sessionOp = [.refuse])
      (hlocks : es.filterMap lockArguments = [])
  | used (hload : self.state.load = .locked) (hstate : self'.state = self.state)
      (hcell : self'.lockedFormatsCell = self.lockedFormatsCell)
      (hops : es.filterMap sessionOp = [.use])
      (hlocks : es.filterMap lockArguments = [])
  | released (hload : self.state.load = .locked)
      (hload' : self'.state.load = .initialized)
      (hcell : self'.lockedFormatsCell = none)
      (hops : es.filterMap sessionOp = [.release])
      (hlocks : es.filterMap lockArguments = []) (herr : err = none)

variable {T : ProcessingObject σ} {self : ApoInstance σ}

/-- The outcome of a call that did `e`. -/
abbrev OutcomeOf (self : ApoInstance σ) (call : Call) (e : Effect σ Answer) :
    Prop :=
  Outcome self e.inst (events call e) e.answer.err?

theorem initializeInstance_outcome :
    OutcomeOf self .initializeInstance (perform T self .initializeInstance) := by
  by_cases hload : self.state.load = .uninitialized
  · rw [perform, ApoInstance.initializeInstance_of_uninitialized hload]
    exact .started hload (StateCell.load_holding _) rfl rfl rfl rfl
  · rw [perform, ApoInstance.initializeInstance_of_ne hload]
    exact .quiet rfl rfl rfl rfl

theorem lockForProcess_outcome (input output : Format) :
    OutcomeOf self (.lockForProcess input output)
      (perform T self (.lockForProcess input output)) := by
  by_cases hload : self.state.load = .initialized
  · rcases hhook : T.lockForProcess self.inner input output with ⟨_ | _, inner⟩
    · rw [perform, ApoInstance.lockForProcess_of_error hload hhook]
      -- The rollback puts back the byte the transition replaced.
      have hstate : self.state = StateCell.holding .initialized := by
        rw [← hload]
        exact self.state.eq_holding_load
      exact .refused hload hstate.symm rfl rfl rfl
    · rw [perform, ApoInstance.lockForProcess_of_ok hload hhook]
      exact .acquired { input, output } hload (StateCell.load_holding _) rfl rfl
        rfl rfl
  · rw [perform, ApoInstance.lockForProcess_of_ne input output hload]
    exact .quiet rfl rfl rfl rfl

theorem unlockForProcess_outcome :
    OutcomeOf self .unlockForProcess (perform T self .unlockForProcess) := by
  by_cases hload : self.state.load = .locked
  · rw [perform, ApoInstance.unlockForProcess_of_locked hload]
    exact .released hload (StateCell.load_holding _) rfl rfl rfl rfl
  · rw [perform, ApoInstance.unlockForProcess_of_ne hload]
    exact .quiet rfl rfl rfl rfl

theorem process_outcome (input : ProcessInput) (output : Slice) :
    OutcomeOf self (.process input output)
      (perform T self (.process input output)) := by
  by_cases hload : self.state.load = .locked
  · rw [perform, ApoInstance.process_of_locked input output hload]
    exact .used hload rfl rfl rfl rfl
  · rw [perform, ApoInstance.process_of_ne input output hload]
    exact .quiet rfl rfl rfl rfl

theorem perform_outcome (call : Call) :
    OutcomeOf self call (perform T self call) := by
  cases call with
  | initializeInstance => exact initializeInstance_outcome
  | lockForProcess input output => exact lockForProcess_outcome input output
  | unlockForProcess => exact unlockForProcess_outcome
  | process input output => exact process_outcome input output
  | isInputFormatSupported format => exact .quiet rfl rfl rfl rfl
  | isOutputFormatSupported format => exact .quiet rfl rfl rfl rfl
  | lockedFormats => exact .quiet rfl rfl rfl rfl
  | systemEffects => exact .quiet rfl rfl rfl rfl
  | setSystemEffectState id state => exact .quiet rfl rfl rfl rfl
  | addRef => exact .quiet rfl rfl rfl rfl
  | release => exact .quiet rfl rfl rfl rfl

theorem Outcome.of_err {self' : ApoInstance σ} {es : List Event}
    {err : Option HResult} (h : Outcome self self' es err)
    (herr : err ≠ none) :
    self'.state = self.state ∧
      self'.lockedFormatsCell = self.lockedFormatsCell := by
  cases h with
  | quiet hstate hcell => exact ⟨hstate, hcell⟩
  | refused _ hstate hcell => exact ⟨hstate, hcell⟩
  | used _ hstate hcell => exact ⟨hstate, hcell⟩
  | started _ _ _ _ _ hnone => exact absurd hnone herr
  | acquired _ _ _ _ _ _ hnone => exact absurd hnone herr
  | released _ _ _ _ _ hnone => exact absurd hnone herr

/-- The state an instance is in when a call performs an operation. -/
def opState : Session.Op LockedFormats → State
  | .start => .uninitialized
  | .acquire _ => .initialized
  | .refuse => .initialized
  | .use => .locked
  | .release => .locked

theorem load_eq_of_ops {es : List Event} {op op' : Session.Op LockedFormats}
    (hops : es.filterMap sessionOp = [op'])
    (hload : self.state.load = opState op')
    (hop : op ∈ es.filterMap sessionOp) : self.state.load = opState op := by
  rw [hops, List.mem_singleton] at hop
  rw [hop]
  exact hload

theorem Outcome.load_eq {self' : ApoInstance σ} {es : List Event}
    {err : Option HResult} (h : Outcome self self' es err)
    {op : Session.Op LockedFormats} (hop : op ∈ es.filterMap sessionOp) :
    self.state.load = opState op := by
  cases h with
  | quiet _ _ hops =>
      rw [hops] at hop
      cases hop
  | started hload _ _ hops => exact load_eq_of_ops hops hload hop
  | acquired _ hload _ _ hops => exact load_eq_of_ops hops hload hop
  | refused hload _ _ hops => exact load_eq_of_ops hops hload hop
  | used hload _ _ hops => exact load_eq_of_ops hops hload hop
  | released hload _ _ hops => exact load_eq_of_ops hops hload hop

/-- A `lock_for_process` call succeeds exactly when it ran a lock hook that
did. -/
theorem Outcome.locks {self' : ApoInstance σ} {es : List Event}
    {err : Option HResult} (h : Outcome self self' es err) :
    es.filterMap lockArguments = Session.acquired (es.filterMap sessionOp) := by
  cases h with
  | quiet _ _ hops hlocks => rw [hops, hlocks]; rfl
  | started _ _ _ hops hlocks => rw [hops, hlocks]; rfl
  | acquired _ _ _ _ hops hlocks => rw [hops, hlocks]; rfl
  | refused _ _ _ hops hlocks => rw [hops, hlocks]; rfl
  | used _ _ _ hops hlocks => rw [hops, hlocks]; rfl
  | released _ _ _ hops hlocks => rw [hops, hlocks]; rfl

/-! ## The instance as a session -/

/-- The cell and the cache of an instance in a phase of the protocol. -/
def Tracks (self : ApoInstance σ) : Session.Phase LockedFormats → Prop
  | .fresh =>
      self.state.load = .uninitialized ∧ self.lockedFormatsCell = none
  | .ready => self.state.load = .initialized ∧ self.lockedFormatsCell = none
  | .held formats =>
      self.state.load = .locked ∧ self.lockedFormatsCell = some formats

theorem tracks_new : Tracks (ApoInstance.new T) .fresh :=
  ⟨StateCell.load_new, rfl⟩

/-- What the user's object and the reference count hold does not matter. -/
theorem Tracks.of_eq {self' : ApoInstance σ}
    {phase : Session.Phase LockedFormats} (h : Tracks self phase)
    (hstate : self'.state = self.state)
    (hcell : self'.lockedFormatsCell = self.lockedFormatsCell) :
    Tracks self' phase := by
  cases phase <;> simpa only [Tracks, hstate, hcell] using h

theorem Tracks.eq_fresh {phase : Session.Phase LockedFormats}
    (h : Tracks self phase) (hload : self.state.load = .uninitialized) :
    phase = .fresh := by
  cases phase with
  | fresh => rfl
  | ready => exact absurd (hload.symm.trans h.1) (by decide)
  | held _ => exact absurd (hload.symm.trans h.1) (by decide)

theorem Tracks.eq_ready {phase : Session.Phase LockedFormats}
    (h : Tracks self phase) (hload : self.state.load = .initialized) :
    phase = .ready := by
  cases phase with
  | fresh => exact absurd (hload.symm.trans h.1) (by decide)
  | ready => rfl
  | held _ => exact absurd (hload.symm.trans h.1) (by decide)

theorem Tracks.eq_held {phase : Session.Phase LockedFormats}
    (h : Tracks self phase) (hload : self.state.load = .locked) :
    ∃ formats, phase = .held formats ∧
      self.lockedFormatsCell = some formats := by
  cases phase with
  | fresh => exact absurd (hload.symm.trans h.1) (by decide)
  | ready => exact absurd (hload.symm.trans h.1) (by decide)
  | held formats => exact ⟨formats, rfl, h.2⟩

/-- Every outcome follows the protocol. -/
theorem Tracks.outcome {self' : ApoInstance σ} {es : List Event}
    {err : Option HResult} {phase : Session.Phase LockedFormats}
    (h : Tracks self phase) (houtcome : Outcome self self' es err) :
    ∃ phase', Path Session.Step phase (es.filterMap sessionOp) phase' ∧
      Tracks self' phase' := by
  cases houtcome with
  | quiet hstate hcell hops =>
      rw [hops]
      exact ⟨phase, Path.nil phase, h.of_eq hstate hcell⟩
  | started hload hload' hcell hops =>
      obtain rfl := h.eq_fresh hload
      rw [hops]
      exact ⟨.ready, Path.single .start, hload', hcell.trans h.2⟩
  | acquired formats hload hload' hcell hops =>
      obtain rfl := h.eq_ready hload
      rw [hops]
      exact ⟨.held formats, Path.single (.acquire formats), hload', hcell⟩
  | refused hload hstate hcell hops =>
      obtain rfl := h.eq_ready hload
      rw [hops]
      exact ⟨.ready, Path.single .refuse, h.of_eq hstate hcell⟩
  | used hload hstate hcell hops =>
      obtain ⟨formats, rfl, -⟩ := h.eq_held hload
      rw [hops]
      exact ⟨.held formats, Path.single (.use formats), h.of_eq hstate hcell⟩
  | released hload hload' hcell hops =>
      obtain ⟨formats, rfl, -⟩ := h.eq_held hload
      rw [hops]
      exact ⟨.ready, Path.single (.release formats), hload', hcell⟩

/-- The instance refines the session protocol: every run is a path of the
protocol whose phase the instance tracks. -/
theorem tracks_of_reaches {H : List Event}
    (h : (machine T).Reaches H self) :
    ∃ phase, Path Session.Step .fresh (H.filterMap sessionOp) phase ∧
      Tracks self phase := by
  refine h.simulates sessionOp tracks_new ?_
  rintro es s s' call phase htracks - hstep
  obtain ⟨rfl, rfl⟩ := Prod.mk.inj (Option.some.inj hstep)
  exact htracks.outcome (perform_outcome call)

theorem successfulLocks_eq_acquired {H : List Event}
    (h : (machine T).Reaches H self) :
    successfulLocks H = Session.acquired (H.filterMap sessionOp) := by
  refine h.invariant (I := fun H _ =>
    successfulLocks H = Session.acquired (H.filterMap sessionOp)) rfl ?_
  intro H es s s' call hH _ hstep
  obtain ⟨rfl, rfl⟩ := Prod.mk.inj (Option.some.inj hstep)
  rw [successfulLocks, List.filterMap_append, List.filterMap_append,
    Session.acquired_append, (perform_outcome call).locks]
  exact congrArg (· ++ _) hH

/-- In a reachable instance that is locked the cache holds the arguments of
the latest successful lock. -/
theorem cache_of_locked {H : List Event} (h : (machine T).Reaches H self)
    (hload : self.state.load = .locked) :
    ∃ formats, self.lockedFormatsCell = some formats ∧
      (successfulLocks H).getLast? = some formats := by
  obtain ⟨phase, hpath, htracks⟩ := tracks_of_reaches h
  obtain ⟨formats, rfl, hcell⟩ := htracks.eq_held hload
  refine ⟨formats, hcell, ?_⟩
  rw [successfulLocks_eq_acquired h]
  exact (Session.explains_of_path hpath).1.2.2

theorem cache_of_not_locked {H : List Event} (h : (machine T).Reaches H self)
    (hload : self.state.load ≠ .locked) : self.lockedFormatsCell = none := by
  obtain ⟨phase, -, htracks⟩ := tracks_of_reaches h
  cases phase with
  | fresh => exact htracks.2
  | ready => exact htracks.2
  | held formats => exact absurd htracks.1 hload

/-! ## The contract of the lifecycle -/

/-- What holds of an instance `inst` after a run with history `H`. -/
structure Contract (T : ProcessingObject σ) (H : List Event)
    (inst : ApoInstance σ) : Prop where
  cache_isSome_iff :
    inst.lockedFormatsCell.isSome ↔ inst.state.load = .locked
  cache_eq : inst.state.load = .locked →
    inst.lockedFormatsCell = (successfulLocks H).getLast?
  hooks_allowed : Justified HookAllowed H
  initialize_once : initializations H ≤ 1
  hook_state : ∀ call hook op, hook ∈ (perform T inst call).hooks →
    sessionOp (.hook hook) = some op → inst.state.load = opState op
  err_unchanged : ∀ call e, (perform T inst call).answer.err? = some e →
    (perform T inst call).inst.state = inst.state ∧
      (perform T inst call).inst.lockedFormatsCell = inst.lockedFormatsCell
  /-- `E_FAIL` comes from the user's hook. -/
  lock_eFail : ∀ input output,
    (inst.lockForProcess T input output).answer = .error HResult.eFail →
      (inst.lockForProcess T input output).hooks =
        [.lockForProcess input output (.error HResult.eFail)]
  /-- The mapping `lock_for_process` calls unreachable is not taken. -/
  lock_actual : ∀ err cell, inst.state.lock = (.error err, cell) →
    err.actual ≠ .initialized
  /-- Past its first check `unlock_for_process` does not fail. -/
  unlock_ok : inst.state.load = .locked →
    inst.state.unlock = (.ok (), StateCell.holding .initialized)

theorem lock_actual_ne {err : TransitionError} {cell : StateCell}
    (h : self.state.lock = (.error err, cell)) : err.actual ≠ .initialized := by
  by_cases hload : self.state.load = .initialized
  · rw [StateCell.lock, StateCell.transition_of_load_eq _ hload] at h
    cases h
  · rw [StateCell.lock, StateCell.transition_of_load_ne _ hload] at h
    cases h
    exact hload

theorem lockError_ne_eFail (hload : self.state.load ≠ .initialized) :
    ApoInstance.lockError
      { expected := .initialized
        attempted := .locked
        actual := self.state.load } ≠ HResult.eFail := by
  cases h : self.state.load with
  | uninitialized => decide
  | initialized => exact absurd h hload
  | locked => decide

theorem lockForProcess_eFail {input output : Format}
    (h : (self.lockForProcess T input output).answer =
      .error HResult.eFail) :
    (self.lockForProcess T input output).hooks =
      [.lockForProcess input output (.error HResult.eFail)] := by
  by_cases hload : self.state.load = .initialized
  · rcases hhook : T.lockForProcess self.inner input output with ⟨e | _, inner⟩
    · rw [ApoInstance.lockForProcess_of_error hload hhook] at h ⊢
      obtain rfl := Except.error.inj h
      rfl
    · rw [ApoInstance.lockForProcess_of_ok hload hhook] at h
      cases h
  · rw [ApoInstance.lockForProcess_of_ne input output hload] at h
    exact absurd (Except.error.inj h) (lockError_ne_eFail hload)

/-- Every run of calls on one instance keeps the lifecycle contract. -/
theorem contract_of_reaches {H : List Event}
    (h : (machine T).Reaches H self) : Contract T H self := by
  obtain ⟨phase, hpath, htracks⟩ := tracks_of_reaches h
  refine
    { cache_isSome_iff := ?_
      cache_eq := ?_
      hooks_allowed := ?_
      initialize_once := Session.starts_le_one hpath
      hook_state := ?_
      err_unchanged := ?_
      lock_eFail := fun _ _ => lockForProcess_eFail
      lock_actual := fun _ _ => lock_actual_ne
      unlock_ok := StateCell.transition_of_load_eq _ }
  · constructor
    · intro hsome
      by_contra hload
      simp [cache_of_not_locked h hload] at hsome
    · intro hload
      obtain ⟨formats, hcell, -⟩ := cache_of_locked h hload
      simp [hcell]
  · intro hload
    obtain ⟨formats, hcell, hlast⟩ := cache_of_locked h hload
    exact hcell.trans hlast.symm
  · intro H₁ e H₂ hH
    have hallowed := (Session.explains_of_path hpath).2.of_filterMap
    exact hookAllowed_of_session (hallowed H₁ e H₂ hH)
  · intro call hook op hhook hop
    apply (perform_outcome call).load_eq
    have hmem : Event.hook hook ∈ events call (perform T self call) :=
      List.mem_append_left _ (List.mem_map_of_mem hhook)
    exact List.mem_filterMap.mpr ⟨_, hmem, hop⟩
  · intro call e herr
    exact (perform_outcome call).of_err (by simp [herr])

theorem contract_passthrough :
    ∃ H self, (machine passthrough).Reaches H self ∧
      self.state.load = .locked ∧ lockHooks H = 1 ∧
      Contract passthrough H self := by
  have hreach : (machine passthrough).Reaches _ _ :=
    Machine.reaches_of_exec
      [.initializeInstance,
        .lockForProcess (.pcmFloat32 48000 2) (.pcmFloat32 48000 2),
        .process { samples := ⟨0x1000, 960⟩, flags := .valid } ⟨0x2000, 960⟩]
      rfl
  exact ⟨_, _, hreach, rfl, rfl, contract_of_reaches hreach⟩

end TympanApo.Lifecycle
