import TympanApo.Instance
import TympanApo.Support.Run

/-!
# The instance under a realtime reader

The methods of `ApoInstance` split at their atomic steps: the loads and
compare-exchanges of the lifecycle byte, the user hooks, and the accesses to
the format cache.  A lifecycle thread initializes, locks and unlocks while a
realtime thread runs `locked_formats` and `process`; their steps interleave in
any order, and the hooks return whatever they like.

The fields `calls`, `lock`, `hook` and `writer` of a state are not in the code.
They number the lock calls whose compare-exchange took the cell to `Locked`,
and record the last of them, what its user hook has returned so far, and the
call whose write the cache holds.  Two calls with the same formats are two
calls.
-/

namespace TympanApo.Concurrent

open TympanApo.Realtime
open TympanApo.Support

/-! ## The two threads -/

/-- Where the lifecycle thread is: the names say what it does next. -/
inductive LifecyclePc
  | idle
  | lockHook (formats : LockedFormats)
  | lockCache (formats : LockedFormats)
  | lockRollback (e : HResult)
  | unlockHook
  | unlockClear
  | unlockCas
  deriving DecidableEq

/-- A call of `lock_for_process` that took the cell, with its arguments. -/
structure LockCall where
  number : ℕ
  formats : LockedFormats
  deriving DecidableEq

/-- Where the realtime thread is.  The call that had taken the cell when
`locked_formats` observed `Locked` is kept for the statement only. -/
inductive RealtimePc
  | idle
  | readCache (observed : Option LockCall)
  | processHook
  deriving DecidableEq

structure State where
  state : StateCell
  cache : Option LockedFormats
  calls : ℕ
  lock : Option LockCall
  hook : Option (Except HResult Unit)
  writer : Option LockCall
  lifecycle : LifecyclePc
  realtime : RealtimePc

/-- A new instance with both threads idle. -/
def State.new : State where
  state := StateCell.new
  cache := none
  calls := 0
  lock := none
  hook := none
  writer := none
  lifecycle := .idle
  realtime := .idle

/-- An atomic step of one of the threads; a hook step carries what the hook
returns. -/
inductive Action
  | initializeCas
  | lockCas (input output : Format)
  | lockHook (result : Except HResult Unit)
  | lockCache
  | lockRollback
  | unlockLoad
  | unlockHook
  | unlockClear
  | unlockCas
  | formatsLoad
  | formatsRead
  | processLoad
  | processHook (flags : BufferFlags)

/-- What a step makes known.  `formatsReturned` and `processObserved` are the
read of the cache after `Locked` was observed, with the call that was observed
and the call whose write is read, and the observation of `Locked` by
`process`. -/
inductive Event
  | initializeReturned (result : Except HResult Unit)
  | lockReturned (result : Except HResult Unit)
  | unlockReturned (result : Except HResult Unit)
  | formatsNotLocked
  | formatsReturned (observed writer : Option LockCall)
      (value : Option LockedFormats)
  | processObserved (hook : Option (Except HResult Unit))
  | processReturned (result : Except HResult BufferFlags)

/-- A step of the lifecycle thread. -/
def lifecycleStep (s : State) : LifecyclePc → Action → Option (State × List Event)
  | .idle, .initializeCas =>
      let (result, cell) := s.state.initializeCell
      some ({ s with state := cell },
        [.initializeReturned
          (result.mapError fun _ => HResult.apoerrAlreadyLocked)])
  | .idle, .lockCas input output =>
      match s.state.lock with
      | (.error err, cell) =>
          some ({ s with state := cell },
            [.lockReturned (.error (ApoInstance.lockError err))])
      | (.ok (), cell) =>
          some ({ s with
            state := cell
            calls := s.calls + 1
            lock := some { number := s.calls, formats := { input, output } }
            hook := none
            lifecycle := .lockHook { input, output } }, [])
  | .lockHook formats, .lockHook result =>
      let lifecycle :=
        match result with
        | .ok () => LifecyclePc.lockCache formats
        | .error e => LifecyclePc.lockRollback e
      some ({ s with hook := some result, lifecycle }, [])
  | .lockCache formats, .lockCache =>
      some ({ s with
        cache := some formats
        writer := s.lock
        lifecycle := .idle }, [.lockReturned (.ok ())])
  | .lockRollback e, .lockRollback =>
      some ({ s with state := s.state.unlock.2, lifecycle := .idle },
        [.lockReturned (.error e)])
  | .idle, .unlockLoad =>
      if s.state.load ≠ .locked then
        some (s, [.unlockReturned (.error HResult.apoerrNotLocked)])
      else
        some ({ s with lifecycle := .unlockHook }, [])
  | .unlockHook, .unlockHook =>
      some ({ s with lifecycle := .unlockClear }, [])
  | .unlockClear, .unlockClear =>
      some ({ s with
        cache := none
        writer := none
        lifecycle := .unlockCas }, [])
  | .unlockCas, .unlockCas =>
      let (result, cell) := s.state.unlock
      some ({ s with state := cell, lifecycle := .idle },
        [.unlockReturned (result.mapError fun _ => HResult.apoerrNotLocked)])
  | _, _ => none

/-- A step of the realtime thread. -/
def realtimeStep (s : State) : RealtimePc → Action → Option (State × List Event)
  | .idle, .formatsLoad =>
      if s.state.load ≠ .locked then
        some (s, [.formatsNotLocked])
      else
        some ({ s with realtime := .readCache s.lock }, [])
  | .readCache observed, .formatsRead =>
      some ({ s with realtime := .idle },
        [.formatsReturned observed s.writer s.cache])
  | .idle, .processLoad =>
      if !s.state.isLocked then
        some (s, [.processReturned (.error HResult.apoerrNotLocked)])
      else
        some ({ s with realtime := .processHook }, [.processObserved s.hook])
  | .processHook, .processHook flags =>
      some ({ s with realtime := .idle }, [.processReturned (.ok flags)])
  | _, _ => none

/-- Any interleaving of the two threads. -/
def machine : Machine State Action Event where
  init := State.new
  step s a := (lifecycleStep s s.lifecycle a).or (realtimeStep s s.realtime a)

/-! ## What a step can do -/

/-- The transitions of the two threads, one constructor for each way an
atomic step can go. -/
inductive Transition (s : State) : Action → List Event → State → Prop
  | initialized (hpc : s.lifecycle = .idle)
      (hload : s.state.load = .uninitialized) :
      Transition s .initializeCas [.initializeReturned (.ok ())]
        { s with state := StateCell.holding .initialized }
  | initializeRefused (e : HResult) :
      Transition s .initializeCas [.initializeReturned (.error e)] s
  | lockTaken (input output : Format) (hpc : s.lifecycle = .idle)
      (hload : s.state.load = .initialized) :
      Transition s (.lockCas input output) []
        { s with
          state := StateCell.holding .locked
          calls := s.calls + 1
          lock := some { number := s.calls, formats := { input, output } }
          hook := none
          lifecycle := .lockHook { input, output } }
  | lockRefused (input output : Format) (e : HResult) :
      Transition s (.lockCas input output) [.lockReturned (.error e)] s
  | lockHookOk (formats : LockedFormats)
      (hpc : s.lifecycle = .lockHook formats) :
      Transition s (.lockHook (.ok ())) []
        { s with hook := some (.ok ()), lifecycle := .lockCache formats }
  | lockHookError (formats : LockedFormats) (e : HResult)
      (hpc : s.lifecycle = .lockHook formats) :
      Transition s (.lockHook (.error e)) []
        { s with hook := some (.error e), lifecycle := .lockRollback e }
  | lockCache (formats : LockedFormats)
      (hpc : s.lifecycle = .lockCache formats) :
      Transition s .lockCache [.lockReturned (.ok ())]
        { s with cache := some formats, writer := s.lock, lifecycle := .idle }
  | lockRollback (e : HResult) (hpc : s.lifecycle = .lockRollback e) :
      Transition s .lockRollback [.lockReturned (.error e)]
        { s with state := s.state.unlock.2, lifecycle := .idle }
  | unlockRefused (hload : s.state.load ≠ .locked) :
      Transition s .unlockLoad
        [.unlockReturned (.error HResult.apoerrNotLocked)] s
  | unlockLoad (hpc : s.lifecycle = .idle) (hload : s.state.load = .locked) :
      Transition s .unlockLoad [] { s with lifecycle := .unlockHook }
  | unlockHook (hpc : s.lifecycle = .unlockHook) :
      Transition s .unlockHook [] { s with lifecycle := .unlockClear }
  | unlockClear (hpc : s.lifecycle = .unlockClear) :
      Transition s .unlockClear []
        { s with cache := none, writer := none, lifecycle := .unlockCas }
  | unlockCas (result : Except HResult Unit)
      (hpc : s.lifecycle = .unlockCas) :
      Transition s .unlockCas [.unlockReturned result]
        { s with state := s.state.unlock.2, lifecycle := .idle }
  | formatsNotLocked (hload : s.state.load ≠ .locked) :
      Transition s .formatsLoad [.formatsNotLocked] s
  | formatsLoad (hload : s.state.load = .locked) :
      Transition s .formatsLoad [] { s with realtime := .readCache s.lock }
  | formatsRead (observed : Option LockCall)
      (hpc : s.realtime = .readCache observed) :
      Transition s .formatsRead [.formatsReturned observed s.writer s.cache]
        { s with realtime := .idle }
  | processNotLocked (hload : s.state.load ≠ .locked) :
      Transition s .processLoad
        [.processReturned (.error HResult.apoerrNotLocked)] s
  | processLoad (hload : s.state.load = .locked) :
      Transition s .processLoad [.processObserved s.hook]
        { s with realtime := .processHook }
  | processHook (flags : BufferFlags) :
      Transition s (.processHook flags) [.processReturned (.ok flags)]
        { s with realtime := .idle }

theorem lifecycleStep_transition {s s' : State} {a : Action}
    {es : List Event} (h : lifecycleStep s s.lifecycle a = some (s', es)) :
    Transition s a es s' := by
  unfold lifecycleStep at h
  split at h
  next hpc =>
    by_cases hload : s.state.load = .uninitialized
    · rw [StateCell.initializeCell, StateCell.transition_of_load_eq _ hload] at h
      cases h
      exact .initialized hpc hload
    · rw [StateCell.initializeCell, StateCell.transition_of_load_ne _ hload] at h
      cases h
      exact .initializeRefused _
  next input output hpc =>
    by_cases hload : s.state.load = .initialized
    · rw [StateCell.lock, StateCell.transition_of_load_eq _ hload] at h
      cases h
      exact .lockTaken input output hpc hload
    · rw [StateCell.lock, StateCell.transition_of_load_ne _ hload] at h
      cases h
      exact .lockRefused input output _
  next formats result hpc =>
    cases result with
    | ok =>
        cases h
        exact .lockHookOk formats hpc
    | error e =>
        cases h
        exact .lockHookError formats e hpc
  next formats hpc =>
    cases h
    exact .lockCache formats hpc
  next e hpc =>
    cases h
    exact .lockRollback e hpc
  next hpc =>
    split at h <;> cases h
    next hload => exact .unlockRefused hload
    next hload => exact .unlockLoad hpc (not_not.mp hload)
  next hpc =>
    cases h
    exact .unlockHook hpc
  next hpc =>
    cases h
    exact .unlockClear hpc
  next hpc =>
    cases h
    exact .unlockCas _ hpc
  next => cases h

theorem realtimeStep_transition {s s' : State} {a : Action}
    {es : List Event} (h : realtimeStep s s.realtime a = some (s', es)) :
    Transition s a es s' := by
  unfold realtimeStep at h
  split at h
  next =>
    split at h <;> cases h
    next hload => exact .formatsNotLocked hload
    next hload => exact .formatsLoad (not_not.mp hload)
  next observed hpc =>
    cases h
    exact .formatsRead observed hpc
  next =>
    split at h <;> cases h
    next hload =>
      exact .processNotLocked (by simpa [StateCell.isLocked] using hload)
    next hload => exact .processLoad (by simpa [StateCell.isLocked] using hload)
  next flags _ =>
    cases h
    exact .processHook flags
  next => cases h

/-- Every step is one of the transitions. -/
theorem step_transition {s s' : State} {a : Action} {es : List Event}
    (h : machine.step s a = some (s', es)) : Transition s a es s' := by
  rcases Option.or_eq_some_iff.mp h with hlifecycle | ⟨-, hrealtime⟩
  · exact lifecycleStep_transition hlifecycle
  · exact realtimeStep_transition hrealtime

/-! ## What the lifecycle thread keeps -/

/-- The lock in force is complete: its hook returned `Ok` and the cache holds
its write. -/
def Settled (s : State) : Prop :=
  s.hook = some (.ok ()) ∧ s.cache = s.lock.map LockCall.formats ∧
    s.writer = s.lock ∧ s.lock.isSome

/-- What the program point of the lifecycle thread says about the byte, the
cache and the lock in force. -/
def LockInvariant (s : State) : Prop :=
  match s.lifecycle with
  | .idle =>
      (s.state.load = .locked ∧ Settled s) ∨
        (s.state.load ≠ .locked ∧ s.cache = none)
  | .lockHook formats =>
      s.state.load = .locked ∧ s.lock.map LockCall.formats = some formats ∧
        s.hook = none ∧ s.cache = none
  | .lockCache formats =>
      s.state.load = .locked ∧ s.lock.map LockCall.formats = some formats ∧
        s.hook = some (.ok ()) ∧ s.cache = none
  | .lockRollback e =>
      s.state.load = .locked ∧ s.hook = some (.error e) ∧ s.cache = none
  | .unlockHook => s.state.load = .locked ∧ Settled s
  | .unlockClear => s.state.load = .locked ∧ Settled s
  | .unlockCas =>
      s.state.load = .locked ∧ s.hook = some (.ok ()) ∧ s.cache = none

theorem lockInvariant_new : LockInvariant State.new :=
  .inr ⟨by rw [State.new, StateCell.load_new]; decide, rfl⟩

theorem unlock_of_locked {cell : StateCell} (h : cell.load = .locked) :
    cell.unlock = (.ok (), StateCell.holding .initialized) :=
  StateCell.transition_of_load_eq _ h

variable {s s' : State} {a : Action} {es : List Event}

theorem LockInvariant.idle (h : LockInvariant s)
    (hpc : s.lifecycle = .idle) :
    (s.state.load = .locked ∧ Settled s) ∨
      (s.state.load ≠ .locked ∧ s.cache = none) := by
  simpa only [LockInvariant, hpc] using h

/-- The realtime thread writes nothing the invariant speaks of. -/
theorem LockInvariant.withRealtime (h : LockInvariant s) (pc : RealtimePc) :
    LockInvariant { s with realtime := pc } :=
  h

theorem LockInvariant.transition (h : LockInvariant s)
    (htransition : Transition s a es s') : LockInvariant s' := by
  cases htransition with
  | initialized hpc hload =>
      rcases h.idle hpc with ⟨hlocked, -⟩ | ⟨-, hcache⟩
      · exact absurd (hload.symm.trans hlocked) (by decide)
      · simp [LockInvariant, hpc, hcache]
  | lockTaken input output hpc hload =>
      rcases h.idle hpc with ⟨hlocked, -⟩ | ⟨-, hcache⟩
      · exact absurd (hload.symm.trans hlocked) (by decide)
      · simp [LockInvariant, hcache]
  | lockHookOk formats hpc =>
      simp only [LockInvariant, hpc] at h
      exact ⟨h.1, h.2.1, rfl, h.2.2.2⟩
  | lockHookError formats e hpc =>
      simp only [LockInvariant, hpc] at h
      exact ⟨h.1, rfl, h.2.2.2⟩
  | lockCache formats hpc =>
      simp only [LockInvariant, hpc] at h
      obtain ⟨hload, hlock, hhook, -⟩ := h
      have hsome : s.lock.isSome := by
        rw [← Option.isSome_map, hlock]
        rfl
      exact .inl ⟨hload, hhook, hlock.symm, rfl, hsome⟩
  | lockRollback e hpc =>
      simp only [LockInvariant, hpc] at h
      refine .inr ⟨?_, h.2.2⟩
      simp [unlock_of_locked h.1]
  | unlockLoad hpc hload =>
      rcases h.idle hpc with ⟨-, hsettled⟩ | ⟨hnot, -⟩
      · exact ⟨hload, hsettled⟩
      · exact absurd hload hnot
  | unlockHook hpc =>
      simp only [LockInvariant, hpc] at h
      exact h
  | unlockClear hpc =>
      simp only [LockInvariant, hpc] at h
      exact ⟨h.1, h.2.1, rfl⟩
  | unlockCas result hpc =>
      simp only [LockInvariant, hpc] at h
      refine .inr ⟨?_, h.2.2⟩
      simp [unlock_of_locked h.1]
  | formatsLoad => exact h.withRealtime _
  | formatsRead => exact h.withRealtime _
  | processLoad => exact h.withRealtime _
  | processHook => exact h.withRealtime _
  | initializeRefused => exact h
  | lockRefused => exact h
  | unlockRefused => exact h
  | formatsNotLocked => exact h
  | processNotLocked => exact h

theorem LockInvariant.load_of_ne_idle (h : LockInvariant s)
    (hpc : s.lifecycle ≠ .idle) : s.state.load = .locked := by
  rw [LockInvariant] at h
  split at h
  next hidle => exact absurd hidle hpc
  all_goals exact h.1

/-- Program points at which the hook of a lock that is taken has returned
`Ok`. -/
def hookReturned : LifecyclePc → Bool
  | .lockHook _ => false
  | .lockRollback _ => false
  | _ => true

/-- While the cell is `Locked`, the program point tells whether the hook has
returned `Ok`. -/
theorem LockInvariant.hook_iff (h : LockInvariant s)
    (hload : s.state.load = .locked) :
    s.hook = some (.ok ()) ↔ hookReturned s.lifecycle := by
  cases hpc : s.lifecycle with
  | idle =>
      rcases h.idle hpc with ⟨-, hsettled⟩ | ⟨hnot, -⟩
      · exact iff_of_true hsettled.1 rfl
      · exact absurd hload hnot
  | lockHook formats =>
      simp only [LockInvariant, hpc] at h
      simp [h.2.2.1, hookReturned]
  | lockCache formats =>
      simp only [LockInvariant, hpc] at h
      exact iff_of_true h.2.2.1 rfl
  | lockRollback e =>
      simp only [LockInvariant, hpc] at h
      simp [h.2.1, hookReturned]
  | unlockHook =>
      simp only [LockInvariant, hpc] at h
      exact iff_of_true h.2.1 rfl
  | unlockClear =>
      simp only [LockInvariant, hpc] at h
      exact iff_of_true h.2.1 rfl
  | unlockCas =>
      simp only [LockInvariant, hpc] at h
      exact iff_of_true h.2.1 rfl

theorem lockInvariant_of_reaches {H : List Event}
    (h : machine.Reaches H s) : LockInvariant s := by
  refine h.invariant (I := fun _ s => LockInvariant s) lockInvariant_new ?_
  intro H es s s' a hinvariant _ hstep
  exact hinvariant.transition (step_transition hstep)

/-! ## Methods as sequences of steps -/

/-- The memory of an instance with both threads idle. -/
structure Agrees {σ : Type*} (s : State) (inst : ApoInstance σ) : Prop where
  state : s.state = inst.state
  cache : s.cache = inst.lockedFormatsCell
  lifecycle : s.lifecycle = .idle
  realtime : s.realtime = .idle

/-- Steps taken without interruption from `s` record `es` and leave the memory
of `inst`. -/
def RunsTo {σ : Type*} (s : State) (es : List Event) (inst : ApoInstance σ) :
    Prop :=
  ∃ as s', machine.execFrom as [] s = some (es, s') ∧ Agrees s' inst

variable {σ : Type*} {T : ProcessingObject σ} {inst : ApoInstance σ}

theorem initializeInstance_steps (h : Agrees s inst) :
    RunsTo s [.initializeReturned inst.initializeInstance.answer]
      inst.initializeInstance.inst := by
  obtain ⟨state, cache, calls, lock, hook, writer, lifecycle, realtime⟩ := s
  obtain ⟨rfl, rfl, rfl, rfl⟩ := h
  exact ⟨[.initializeCas], _, rfl, ⟨rfl, rfl, rfl, rfl⟩⟩

theorem lockForProcess_steps (h : Agrees s inst) (input output : Format) :
    RunsTo s [.lockReturned (inst.lockForProcess T input output).answer]
      (inst.lockForProcess T input output).inst := by
  obtain ⟨state, cache, calls, lock, hook, writer, lifecycle, realtime⟩ := s
  obtain ⟨rfl, rfl, rfl, rfl⟩ := h
  by_cases hload : inst.state.load = .initialized
  · have hlock : inst.state.lock = (.ok (), StateCell.holding .locked) :=
      StateCell.transition_of_load_eq _ hload
    have hunlock := unlock_of_locked (StateCell.load_holding .locked)
    rcases hhook : T.lockForProcess inst.inner input output with
      ⟨e | _, inner⟩
    · rw [ApoInstance.lockForProcess_of_error hload hhook]
      refine ⟨[.lockCas input output, .lockHook (.error e), .lockRollback],
        ⟨(StateCell.holding .locked).unlock.2, inst.lockedFormatsCell,
          calls + 1, some ⟨calls, { input, output }⟩, some (.error e), writer,
          .idle, .idle⟩, ?_, ?_⟩
      · simp only [Machine.execFrom, machine, lifecycleStep, hlock]
        rfl
      · exact ⟨congrArg Prod.snd hunlock, rfl, rfl, rfl⟩
    · rw [ApoInstance.lockForProcess_of_ok hload hhook]
      refine ⟨[.lockCas input output, .lockHook (.ok ()), .lockCache],
        ⟨StateCell.holding .locked, some { input, output }, calls + 1,
          some ⟨calls, { input, output }⟩, some (.ok ()),
          some ⟨calls, { input, output }⟩, .idle, .idle⟩, ?_, ?_⟩
      · simp only [Machine.execFrom, machine, lifecycleStep, hlock]
        rfl
      · exact ⟨rfl, rfl, rfl, rfl⟩
  · have hlock : inst.state.lock = (.error _, inst.state) :=
      StateCell.transition_of_load_ne .locked hload
    rw [ApoInstance.lockForProcess_of_ne input output hload]
    refine ⟨[.lockCas input output],
      ⟨inst.state, inst.lockedFormatsCell, calls, lock, hook, writer, .idle, .idle⟩, ?_, ?_⟩
    · simp only [Machine.execFrom, machine, lifecycleStep, hlock]
      rfl
    · exact ⟨rfl, rfl, rfl, rfl⟩

theorem unlockForProcess_steps (h : Agrees s inst) :
    RunsTo s [.unlockReturned (inst.unlockForProcess T).answer]
      (inst.unlockForProcess T).inst := by
  obtain ⟨state, cache, calls, lock, hook, writer, lifecycle, realtime⟩ := s
  obtain ⟨rfl, rfl, rfl, rfl⟩ := h
  by_cases hload : inst.state.load = .locked
  · rw [ApoInstance.unlockForProcess_of_locked hload]
    have hunlock := unlock_of_locked hload
    have hreturn : (inst.state.unlock.1.mapError
        fun _ => HResult.apoerrNotLocked) = .ok () := by
      rw [hunlock]
      rfl
    have hstep : machine.step
        ⟨inst.state, inst.lockedFormatsCell, calls, lock, hook, writer, .idle, .idle⟩
        .unlockLoad =
          some (⟨inst.state, inst.lockedFormatsCell, calls, lock, hook, writer, .unlockHook,
            .idle⟩, []) := by
      simp [machine, lifecycleStep, hload]
    refine ⟨[.unlockLoad, .unlockHook, .unlockClear, .unlockCas],
      ⟨inst.state.unlock.2, none, calls, lock, hook, none, .idle, .idle⟩, ?_, ?_⟩
    · rw [Machine.execFrom_cons hstep]
      exact congrArg (fun result => some ([Event.unlockReturned result],
        (⟨inst.state.unlock.2, none, calls, lock, hook, none, .idle, .idle⟩ : State))) hreturn
    · exact ⟨congrArg Prod.snd hunlock, rfl, rfl, rfl⟩
  · rw [ApoInstance.unlockForProcess_of_ne hload]
    have hstep : machine.step
        ⟨inst.state, inst.lockedFormatsCell, calls, lock, hook, writer, .idle, .idle⟩
        .unlockLoad =
          some (⟨inst.state, inst.lockedFormatsCell, calls, lock, hook, writer, .idle, .idle⟩,
            [.unlockReturned (.error HResult.apoerrNotLocked)]) := by
      simp [machine, lifecycleStep, hload]
    exact ⟨[.unlockLoad], _, Machine.execFrom_cons hstep [] [],
      ⟨rfl, rfl, rfl, rfl⟩⟩

/-- An uninterrupted `locked_formats` returns what the method returns. -/
theorem lockedFormats_steps (h : Agrees s inst) :
    RunsTo s [.formatsNotLocked] inst ∧ inst.lockedFormats = none ∨
      RunsTo s [.formatsReturned s.lock s.writer inst.lockedFormats] inst := by
  obtain ⟨state, cache, calls, lock, hook, writer, lifecycle, realtime⟩ := s
  obtain ⟨rfl, rfl, rfl, rfl⟩ := h
  by_cases hload : inst.state.load = .locked
  · right
    rw [ApoInstance.lockedFormats_of_locked hload]
    have hstep : machine.step
        ⟨inst.state, inst.lockedFormatsCell, calls, lock, hook, writer, .idle, .idle⟩
        .formatsLoad =
          some (⟨inst.state, inst.lockedFormatsCell, calls, lock, hook, writer, .idle,
            .readCache lock⟩, []) := by
      simp [machine, lifecycleStep, realtimeStep, hload]
    exact ⟨[.formatsLoad, .formatsRead], _,
      Machine.execFrom_cons hstep [.formatsRead] [], ⟨rfl, rfl, rfl, rfl⟩⟩
  · left
    have hstep : machine.step
        ⟨inst.state, inst.lockedFormatsCell, calls, lock, hook, writer, .idle, .idle⟩
        .formatsLoad =
          some (⟨inst.state, inst.lockedFormatsCell, calls, lock, hook, writer, .idle, .idle⟩,
            [.formatsNotLocked]) := by
      simp [machine, lifecycleStep, realtimeStep, hload]
    exact ⟨⟨[.formatsLoad], _, Machine.execFrom_cons hstep [] [],
      ⟨rfl, rfl, rfl, rfl⟩⟩, ApoInstance.lockedFormats_of_ne hload⟩

/-- An uninterrupted `process` returns what the method returns. -/
theorem process_steps (h : Agrees s inst) (input : ProcessInput)
    (output : Slice) :
    RunsTo s [.processReturned (inst.process T input output).answer]
        (inst.process T input output).inst ∨
      RunsTo s [.processObserved s.hook,
          .processReturned (inst.process T input output).answer]
        (inst.process T input output).inst := by
  obtain ⟨state, cache, calls, lock, hook, writer, lifecycle, realtime⟩ := s
  obtain ⟨rfl, rfl, rfl, rfl⟩ := h
  by_cases hload : inst.state.load = .locked
  · right
    rw [ApoInstance.process_of_locked input output hload]
    have hstep : machine.step
        ⟨inst.state, inst.lockedFormatsCell, calls, lock, hook, writer, .idle, .idle⟩
        .processLoad =
          some (⟨inst.state, inst.lockedFormatsCell, calls, lock, hook, writer, .idle,
            .processHook⟩, [.processObserved hook]) := by
      simp [machine, lifecycleStep, realtimeStep, StateCell.isLocked, hload]
    exact ⟨[.processLoad, .processHook (T.process inst.inner input output).1],
      _, Machine.execFrom_cons hstep _ [], ⟨rfl, rfl, rfl, rfl⟩⟩
  · left
    rw [ApoInstance.process_of_ne input output hload]
    have hstep : machine.step
        ⟨inst.state, inst.lockedFormatsCell, calls, lock, hook, writer, .idle, .idle⟩
        .processLoad =
          some (⟨inst.state, inst.lockedFormatsCell, calls, lock, hook, writer, .idle, .idle⟩,
            [.processReturned (.error HResult.apoerrNotLocked)]) := by
      simp [machine, lifecycleStep, realtimeStep, StateCell.isLocked, hload]
    exact ⟨[.processLoad], _, Machine.execFrom_cons hstep [] [],
      ⟨rfl, rfl, rfl, rfl⟩⟩

end TympanApo.Concurrent
