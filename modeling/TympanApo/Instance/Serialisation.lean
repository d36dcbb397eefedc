import TympanApo.Instance.Concurrent

/-!
# The instance under a host that serialises its calls

`locked_formats` observes `Locked` and reads the cache afterwards, and `process`
observes `Locked` and takes it that the lock hook has returned; the
compare-exchange of `lock_for_process` comes before both.  A host that starts
no call beside the calls it must not overlap gets what the two methods promise,
and a call that starts against that order can run into the gap.
-/

namespace TympanApo.Concurrent

open TympanApo.Realtime
open TympanApo.Support

variable {s s' : State} {a : Action} {es : List Event}

/-! ## What the realtime thread is promised -/

/-- The formats of the call that was observed, read from its own write, and a
lock hook that has returned `Ok`. -/
def Event.Sound : Event → Prop
  | .formatsReturned observed writer value =>
      ∃ call : LockCall, observed = some call ∧ writer = some call ∧
        value = some call.formats
  | .processObserved hook => hook = some (.ok ())
  | _ => True

theorem Settled.sound (h : Settled s) :
    (Event.formatsReturned s.lock s.writer s.cache).Sound := by
  obtain ⟨-, hcache, hwriter, hsome⟩ := h
  obtain ⟨call, hcall⟩ := Option.isSome_iff_exists.mp hsome
  refine ⟨call, hcall, hwriter.trans hcall, ?_⟩
  rw [hcache, hcall]
  rfl

/-- Nothing is promised of a cache that is empty. -/
theorem Event.not_sound_of_none (observed writer : Option LockCall) :
    ¬ (Event.formatsReturned observed writer none).Sound := by
  rintro ⟨call, -, -, hvalue⟩
  cases hvalue

/-! ## A host that serialises its calls -/

/-- A call of `lock_for_process` is in progress. -/
def locking : LifecyclePc → Bool
  | .lockHook _ => true
  | .lockCache _ => true
  | .lockRollback _ => true
  | _ => false

/-- What a host can see to: `locked_formats` starts only while no lock and no
unlock is in progress, an unlock only while no `locked_formats` is, and
`process` only while no lock is.  Nothing is asked of a call that has
started. -/
def Serialised (s : State) : Action → Prop
  | .unlockLoad => ∀ observed, s.realtime ≠ .readCache observed
  | .formatsLoad => s.lifecycle = .idle
  | .processLoad => locking s.lifecycle = false
  | _ => True

/-- While `locked_formats` is between its two steps, the lock it observed
stays in force. -/
def Undisturbed (s : State) : Prop :=
  ∀ observed, s.realtime = .readCache observed →
    s.lifecycle = .idle ∧ s.state.load = .locked ∧ s.lock = observed

theorem undisturbed_of_ne
    (h : ∀ observed, s.realtime ≠ .readCache observed) : Undisturbed s :=
  fun observed hpc => absurd hpc (h observed)

/-- A lifecycle thread that is inside a call has no reader beside it. -/
theorem Undisturbed.not_reading (h : Undisturbed s)
    (hpc : s.lifecycle ≠ .idle) (observed : Option LockCall) :
    s.realtime ≠ .readCache observed :=
  fun hreading => hpc (h observed hreading).1

/-- Nor has one that takes a cell that is not `Locked`. -/
theorem Undisturbed.not_reading_of_load (h : Undisturbed s)
    (hload : s.state.load ≠ .locked) (observed : Option LockCall) :
    s.realtime ≠ .readCache observed :=
  fun hreading => hload (h observed hreading).2.1

theorem Undisturbed.transition (h : Undisturbed s) (hserial : Serialised s a)
    (htransition : Transition s a es s') : Undisturbed s' := by
  cases htransition with
  | initialized hpc hload =>
      refine undisturbed_of_ne (h.not_reading_of_load ?_)
      simp [hload]
  | lockTaken input output hpc hload =>
      refine undisturbed_of_ne (h.not_reading_of_load ?_)
      simp [hload]
  | lockHookOk formats hpc =>
      exact undisturbed_of_ne (h.not_reading (by simp [hpc]))
  | lockHookError formats e hpc =>
      exact undisturbed_of_ne (h.not_reading (by simp [hpc]))
  | lockCache formats hpc =>
      exact undisturbed_of_ne (h.not_reading (by simp [hpc]))
  | lockRollback e hpc =>
      exact undisturbed_of_ne (h.not_reading (by simp [hpc]))
  | unlockLoad hpc hload => exact undisturbed_of_ne hserial
  | unlockHook hpc =>
      exact undisturbed_of_ne (h.not_reading (by simp [hpc]))
  | unlockClear hpc =>
      exact undisturbed_of_ne (h.not_reading (by simp [hpc]))
  | unlockCas result hpc =>
      exact undisturbed_of_ne (h.not_reading (by simp [hpc]))
  | formatsLoad hload =>
      rintro observed ⟨⟩
      exact ⟨hserial, hload, rfl⟩
  | formatsRead observed hpc => exact undisturbed_of_ne (by simp)
  | processLoad hload => exact undisturbed_of_ne (by simp)
  | processHook flags => exact undisturbed_of_ne (by simp)
  | initializeRefused => exact h
  | lockRefused => exact h
  | unlockRefused => exact h
  | formatsNotLocked => exact h
  | processNotLocked => exact h

theorem undisturbed_of_run {H : List Event}
    (h : machine.Run Serialised H s) : Undisturbed s := by
  refine h.invariant (I := fun _ s => Undisturbed s)
    (undisturbed_of_ne (by simp [machine, State.new])) ?_
  intro H es s s' a hundisturbed hserial hstep
  exact hundisturbed.transition hserial (step_transition hstep)

/-- Outside a lock call, the hook of the lock in force has returned. -/
theorem hookReturned_of_not_locking {pc : LifecyclePc}
    (h : locking pc = false) : hookReturned pc := by
  cases pc with
  | lockHook => cases h
  | lockCache => cases h
  | lockRollback => cases h
  | _ => rfl

/-- A serialised step is sound. -/
theorem LockInvariant.sound_of_serialised (h : LockInvariant s)
    (hundisturbed : Undisturbed s) (hserial : Serialised s a)
    (htransition : Transition s a es s') : ∀ e ∈ es, e.Sound := by
  cases htransition with
  | formatsRead observed hpc =>
      obtain ⟨hidle, hload, rfl⟩ := hundisturbed observed hpc
      rcases h.idle hidle with ⟨-, hsettled⟩ | ⟨hnot, -⟩
      · simpa using hsettled.sound
      · exact absurd hload hnot
  | processLoad hload =>
      have hhook := (h.hook_iff hload).mpr (hookReturned_of_not_locking hserial)
      simpa [Event.Sound] using hhook
  | _ => simp [Event.Sound]

/-- In every run in which the host serialises its calls, the realtime thread
gets what it is promised. -/
theorem sound_of_serialised_run {H : List Event}
    (h : machine.Run Serialised H s) : ∀ e ∈ H, e.Sound := by
  refine h.forall_mem (P := Event.Sound) ?_
  intro H es s s' a hrun hserial hstep
  have hinvariant := lockInvariant_of_reaches hrun.reaches
  exact hinvariant.sound_of_serialised (undisturbed_of_run hrun) hserial
    (step_transition hstep)

/-- A host that serialises its calls locks, unlocks and locks again with the
same formats; every read is answered by the lock in force. -/
theorem sound_locked_twice :
    ∃ H s, machine.Run Serialised H s ∧
      .formatsReturned
        (some ⟨1, .pcmFloat32 48000 2, .pcmFloat32 48000 2⟩)
        (some ⟨1, .pcmFloat32 48000 2, .pcmFloat32 48000 2⟩)
        (some ⟨.pcmFloat32 48000 2, .pcmFloat32 48000 2⟩) ∈ H ∧
      .processObserved (some (.ok ())) ∈ H ∧ ∀ e ∈ H, e.Sound := by
  have h₀ : machine.Run Serialised [] State.new := Machine.Run.start
  have h₁ := h₀.next (a := Action.initializeCas) trivial rfl
  have h₂ := h₁.next
    (a := Action.lockCas (.pcmFloat32 48000 2) (.pcmFloat32 48000 2)) trivial rfl
  have h₃ := h₂.next (a := Action.lockHook (.ok ())) trivial rfl
  have h₄ := h₃.next (a := Action.lockCache) trivial rfl
  have h₅ := h₄.next (a := Action.processLoad) rfl rfl
  -- the unlock and the second lock overlap the call of `process`
  have h₆ := h₅.next (a := Action.unlockLoad) nofun rfl
  have h₇ := h₆.next (a := Action.unlockHook) trivial rfl
  have h₈ := h₇.next (a := Action.unlockClear) trivial rfl
  have h₉ := h₈.next (a := Action.unlockCas) trivial rfl
  have hfree := h₉.next
    (a := Action.lockCas (.pcmFloat32 48000 2) (.pcmFloat32 48000 2)) trivial rfl
  have htaken := hfree.next (a := Action.lockHook (.ok ())) trivial rfl
  have hlocked := htaken.next (a := Action.lockCache) trivial rfl
  have hserved := hlocked.next (a := Action.processHook .valid) trivial rfl
  have hreading := hserved.next (a := Action.formatsLoad) rfl rfl
  have hrun := hreading.next (a := Action.formatsRead) trivial rfl
  refine ⟨_, _, hrun, ?_, ?_, sound_of_serialised_run hrun⟩
  · exact List.mem_of_getElem? (i := 6) rfl
  · exact List.mem_of_getElem? (i := 2) rfl

/-! ## A host that does not -/

theorem step_formatsRead {observed : Option LockCall}
    (hpc : s.realtime = .readCache observed) :
    machine.step s .formatsRead =
      some ({ s with realtime := .idle },
        [.formatsReturned observed s.writer s.cache]) := by
  have hlifecycle : lifecycleStep s s.lifecycle .formatsRead = none := by
    cases s.lifecycle <;> rfl
  simp [machine, hlifecycle, hpc, realtimeStep]

/-- The calls that have started can go on to an answer that is not sound. -/
def Fails (s : State) (es : List Event) : Prop :=
  ∃ as es' s', as ⊆ [Action.unlockHook, .unlockClear, .formatsRead] ∧
    machine.execFrom as es s = some (es', s') ∧ ∃ e ∈ es', ¬ e.Sound

theorem Fails.of_event {e : Event} (hmem : e ∈ es) (hunsound : ¬ e.Sound) :
    Fails s es :=
  ⟨[], es, s, by simp, rfl, e, hmem, hunsound⟩

theorem Fails.of_step {es₁ : List Event}
    (hin : a ∈ [Action.unlockHook, .unlockClear, .formatsRead])
    (hstep : machine.step s a = some (s', es₁)) (h : Fails s' (es ++ es₁)) :
    Fails s es := by
  obtain ⟨as, es', s'', hsub, hexec, hunsound⟩ := h
  refine ⟨a :: as, es', s'', List.cons_subset.mpr ⟨hin, hsub⟩, ?_, hunsound⟩
  rw [Machine.execFrom_cons hstep]
  exact hexec

/-- An empty cache that is about to be read. -/
theorem Fails.of_empty {observed : Option LockCall}
    (hpc : s.realtime = .readCache observed) (hcache : s.cache = none) :
    Fails s es := by
  refine .of_step (by simp) (step_formatsRead hpc) ?_
  rw [hcache]
  exact .of_event (by simp) (Event.not_sound_of_none observed s.writer)

/-- A cache that is about to be cleared and read. -/
theorem Fails.of_clear {observed : Option LockCall}
    (hreading : s.realtime = .readCache observed)
    (hpc : s.lifecycle = .unlockClear) : Fails s es := by
  have hstep : machine.step s .unlockClear =
      some ({ s with
        cache := none
        writer := none
        lifecycle := .unlockCas }, []) := by
    simp [machine, lifecycleStep, hpc]
  exact .of_step (by simp) hstep (.of_empty hreading rfl)

/-- A read of the cache beside a call of the lifecycle thread, or after an
unlock. -/
theorem LockInvariant.fails_of_reading (h : LockInvariant s)
    {observed : Option LockCall} (hreading : s.realtime = .readCache observed)
    (hdisturbed : s.lifecycle = .idle → s.state.load ≠ .locked) :
    Fails s es := by
  cases hpc : s.lifecycle with
  | idle =>
      rcases h.idle hpc with ⟨hload, -⟩ | ⟨-, hcache⟩
      · exact absurd hload (hdisturbed hpc)
      · exact .of_empty hreading hcache
  | lockHook formats =>
      simp only [LockInvariant, hpc] at h
      exact .of_empty hreading h.2.2.2
  | lockCache formats =>
      simp only [LockInvariant, hpc] at h
      exact .of_empty hreading h.2.2.2
  | lockRollback e =>
      simp only [LockInvariant, hpc] at h
      exact .of_empty hreading h.2.2
  | unlockHook =>
      have hstep : machine.step s .unlockHook =
          some ({ s with lifecycle := .unlockClear }, []) := by
        simp [machine, lifecycleStep, hpc]
      exact .of_step (by simp) hstep (.of_clear hreading rfl)
  | unlockClear => exact .of_clear hreading hpc
  | unlockCas =>
      simp only [LockInvariant, hpc] at h
      exact .of_empty hreading h.2.2

/-- From every reachable state, a call that starts against the serialisation
reaches an answer that is not sound by steps of the calls in progress alone;
the one exception is `process` between the `Ok` of a lock hook and the write of
the cache, two points of one call that no host can tell apart. -/
theorem fails_of_not_serialised {H : List Event} (h : machine.Reaches H s)
    (hstep : machine.step s a = some (s', es)) (hserial : ¬ Serialised s a)
    (hpoint : a = .processLoad → ∀ formats, s.lifecycle ≠ .lockCache formats) :
    Fails s' es := by
  have hinvariant := lockInvariant_of_reaches h
  have htransition := step_transition hstep
  have hinvariant' := hinvariant.transition htransition
  cases htransition with
  | unlockRefused hload =>
      obtain ⟨observed, hreading⟩ := not_forall_not.mp hserial
      exact hinvariant.fails_of_reading hreading fun _ => hload
  | unlockLoad hpc hload =>
      obtain ⟨observed, hreading⟩ := not_forall_not.mp hserial
      exact hinvariant'.fails_of_reading hreading nofun
  | formatsNotLocked hload =>
      exact absurd (hinvariant.load_of_ne_idle hserial) hload
  | formatsLoad hload =>
      exact hinvariant'.fails_of_reading rfl fun hpc => absurd hpc hserial
  | processNotLocked hload =>
      refine absurd (hinvariant.load_of_ne_idle ?_) hload
      intro hpc
      exact hserial (by rw [Serialised, hpc]; rfl)
  | processLoad hload =>
      refine .of_event (List.mem_singleton_self _) ?_
      rw [Event.Sound, hinvariant.hook_iff hload]
      cases hpc : s.lifecycle with
      | lockCache formats => exact absurd hpc (hpoint rfl formats)
      | lockHook => exact Bool.false_ne_true
      | lockRollback => exact Bool.false_ne_true
      | _ => exact absurd (by rw [Serialised, hpc]; rfl) hserial
  | _ => exact absurd trivial hserial

/-- Between the compare-exchange of a lock and the return of its hook,
`process` observes `Locked` with a hook that has not returned, and
`locked_formats` observes `Locked` and returns `None`. -/
theorem run_not_sound :
    ∃ H s, machine.Reaches H s ∧
      .processObserved none ∈ H ∧
      .formatsReturned
        (some ⟨0, .pcmFloat32 48000 2, .pcmFloat32 48000 2⟩) none none ∈ H ∧
      ¬ ∀ e ∈ H, e.Sound := by
  have hreach : machine.Reaches _ _ :=
    Machine.reaches_of_exec
      [.initializeCas, .lockCas (.pcmFloat32 48000 2) (.pcmFloat32 48000 2),
        .processLoad, .processHook .valid, .formatsLoad, .formatsRead]
      rfl
  refine ⟨_, _, hreach, ?_, ?_, ?_⟩
  · exact List.mem_of_getElem? (i := 1) rfl
  · exact List.mem_of_getElem? (i := 3) rfl
  · intro hsound
    have hprocess : Event.Sound (.processObserved none) :=
      hsound _ (List.mem_of_getElem? (i := 1) rfl)
    cases hprocess

end TympanApo.Concurrent
