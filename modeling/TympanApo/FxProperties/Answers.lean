import TympanApo.FxProperties.Bindings
import TympanApo.Apo
import TympanApo.Support.Run

/-!
# Endpoint bindings as the answers tell them

Runs of writes and clears in which any registry call may fail.  The slots hold
what the calls that were answered with success have put there, in their order;
a call that reports a failure has changed no value.  The one exception is a
clear whose key cannot be opened for an invalid argument: it is answered with
success and leaves the value in place.
-/

namespace TympanApo.FxProperties

open TympanApo.Support
open TympanApo.Win32

/-! ## The slots of the categories -/

/-- `FMTID_FX`. -/
def fmtidFx : Clsid :=
  Clsid.fromU128 0xD04E05A6594B4FB6A80D01AF5EED7D1D

/-- `pid_for_category`, with the values of the module `pid`. -/
def pidForCategory : ApoCategory → UInt32
  | .sfx => 0
  | .mfx => 1
  | .efx => 2

/-- The slot of a category at an endpoint. -/
def categorySlot (kind : EndpointKind) (endpointId : Clsid)
    (category : ApoCategory) : Slot where
  kind := kind
  endpointId := endpointId
  fmtid := fmtidFx
  pid := pidForCategory category

/-- The categories of an endpoint have slots of their own. -/
theorem categorySlot_inj {kind kind' : EndpointKind}
    {endpointId endpointId' : Clsid} {category category' : ApoCategory} :
    categorySlot kind endpointId category =
        categorySlot kind' endpointId' category' ↔
      kind = kind' ∧ endpointId = endpointId' ∧ category = category' := by
  constructor
  · intro h
    obtain ⟨hkind, hendpoint, -, hpid⟩ := Slot.mk.inj h
    refine ⟨hkind, hendpoint, ?_⟩
    cases category <;> cases category' <;>
      first | rfl | exact absurd hpid (by decide)
  · rintro ⟨rfl, rfl, rfl⟩
    rfl

/-! ## Calls with any outcomes -/

/-- A call of one of the two functions, with the outcomes of its registry
calls. -/
inductive Attempt
  | write (create : CreateOutcome) (set : Outcome) (q : Slot) (c : Clsid)
  | clear (create : CreateOutcome) (delete : Outcome) (q : Slot)

namespace Attempt

/-- What the call asks for. -/
def op : Attempt → Op
  | .write _ _ q c => .write q c
  | .clear _ _ q => .clear q

def perform : Attempt → System → System × Except Failure Unit
  | .write create set q c =>
      writeEndpointBinding create set q.kind q.endpointId q.fmtid q.pid c
  | .clear create delete q =>
      clearEndpointBinding create delete q.kind q.endpointId q.fmtid q.pid

/-- A clear whose key cannot be opened for an invalid argument. -/
def Refused : Attempt → Prop
  | .write .. => False
  | .clear create _ _ =>
      ∃ e made, create = .failed e made ∧ e.code = HResult.eInvalidarg

end Attempt

/-- The calls on one hive; a call makes known what it was asked and what it
answered. -/
def machine (hive : Hive) :
    Machine System Attempt (Op × Except Failure Unit) where
  init := { hive, failures := [] }
  step s a := some ((a.perform s).1, [(a.op, (a.perform s).2)])

/-- What was asked, if it was answered with success. -/
def answered : Op × Except Failure Unit → Option Op
  | (op, .ok ()) => some op
  | (_, .error _) => none

/-- Slots after the calls that were answered with success. -/
def settle (H : List (Op × Except Failure Unit))
    (slots : Slot → Option RegData) : Slot → Option RegData :=
  (H.filterMap answered).foldl (fun slots op =>
    Function.update slots op.slot (op.binding.map bindingData)) slots

/-- A clear that will be taken for done finds nothing to clear. -/
def Sound (s : System) (a : Attempt) : Prop :=
  a.Refused → stored s.hive a.op.slot = none

/-- What a run from `hive` with history `H` leaves. -/
structure AsAnswered (hive : Hive) (H : List (Op × Except Failure Unit))
    (s : System) : Prop where
  slots : stored s.hive = settle H (stored hive)
  elsewhere : ∀ p n,
    (∀ event ∈ H, (p, n) ≠ (event.1.slot.key, event.1.slot.name)) →
      s.hive.value p n = hive.value p n
  kept : ∀ p, hive.HasKey p → s.hive.HasKey p
  made : ∀ p, s.hive.HasKey p →
    hive.HasKey p ∨ ∃ event ∈ H, p <+: event.1.slot.key

theorem settle_concat (H : List (Op × Except Failure Unit))
    (event : Op × Except Failure Unit) (slots : Slot → Option RegData) :
    settle (H ++ [event]) slots = settle [event] (settle H slots) := by
  rw [settle, List.filterMap_append, List.foldl_append]
  rfl

/-! ## One call -/

/-- One call opens its key as far as it gets, and then gives its slot new
content if every registry call succeeded. -/
inductive Performed (s : System) (a : Attempt) :
    System × Except Failure Unit → Prop
  | done (s' : System)
      (hhive : s'.hive = (s.hive.createKey a.op.slot.key).update a.op.slot.key
        a.op.slot.name (a.op.binding.map bindingData)) :
      Performed s a (s', .ok ())
  | failed (s' : System) (e : Failure) (path : HKey)
      (hpath : path <+: a.op.slot.key)
      (hhive : s'.hive = s.hive.createKey path) : Performed s a (s', .error e)
  | refused (s' : System) (path : HKey) (hrefused : a.Refused)
      (hpath : path <+: a.op.slot.key)
      (hhive : s'.hive = s.hive.createKey path) : Performed s a (s', .ok ())

theorem performed (s : System) (a : Attempt) : Performed s a (a.perform s) := by
  cases a with
  | write create set q c =>
      cases create with
      | failed e made => exact .failed _ e _ (List.take_prefix made _) rfl
      | ok =>
          cases set with
          | failed e => exact .failed _ e _ List.prefix_rfl rfl
          | ok => exact .done _ rfl
  | clear create delete q =>
      cases create with
      | failed e made =>
          rw [Attempt.perform, clearEndpointBinding_create_failed]
          by_cases hcode : e.code = HResult.eInvalidarg
          · rw [if_pos hcode]
            exact .refused _ _ ⟨e, made, rfl, hcode⟩
              (List.take_prefix made _) rfl
          · rw [if_neg hcode]
            exact .failed _ e _ (List.take_prefix made _) rfl
      | ok =>
          cases delete with
          | failed e =>
              rw [Attempt.perform, clearEndpointBinding_delete_failed]
              exact .failed _ e _ List.prefix_rfl rfl
          | ok =>
              rw [Attempt.perform, clearEndpointBinding_ok]
              exact .done _ rfl

/-! ## Runs -/

section Runs

variable {hive : Hive} {H : List (Op × Except Failure Unit)} {s s' : System}
variable {a : Attempt} {answer : Except Failure Unit}

/-- A call that gives no slot new content. -/
theorem AsAnswered.opened (h : AsAnswered hive H s)
    (hsettle : ∀ slots, slots a.op.slot = stored s.hive a.op.slot →
      settle [(a.op, answer)] slots = slots) {path : HKey}
    (hpath : path <+: a.op.slot.key)
    (hhive : s'.hive = s.hive.createKey path) :
    AsAnswered hive (H ++ [(a.op, answer)]) s' where
  slots := by
    rw [settle_concat, ← h.slots, hsettle _ rfl, hhive, stored_createKey]
  elsewhere p n hne := by
    rw [hhive, Registry.value_createKey]
    exact h.elsewhere p n (List.forall_mem_append.mp hne).1
  kept p hp := by
    rw [hhive]
    exact (h.kept p hp).createKey path
  made p hp := by
    rw [hhive, Registry.hasKey_createKey] at hp
    rcases hp with hle | hp
    · exact Or.inr ⟨_, List.mem_concat_self, hle.trans hpath⟩
    · refine (h.made p hp).imp_right ?_
      rintro ⟨event, hevent, hle⟩
      exact ⟨event, List.mem_append_left _ hevent, hle⟩

/-- A call that does what it was asked. -/
theorem AsAnswered.done (h : AsAnswered hive H s)
    (hhive : s'.hive = (s.hive.createKey a.op.slot.key).update a.op.slot.key
      a.op.slot.name (a.op.binding.map bindingData)) :
    AsAnswered hive (H ++ [(a.op, .ok ())]) s' where
  slots := by
    have hopen := s.hive.hasKey_createKey_self a.op.slot.key
    rw [settle_concat, ← h.slots, hhive, stored_update hopen, stored_createKey]
    rfl
  elsewhere p n hne := by
    obtain ⟨hbefore, hlast⟩ := List.forall_mem_append.mp hne
    rw [hhive, Registry.value_update_of_ne (hlast _ (List.mem_singleton_self _)),
      Registry.value_createKey]
    exact h.elsewhere p n hbefore
  kept p hp := by
    rw [hhive, Registry.hasKey_update]
    exact (h.kept p hp).createKey _
  made p hp := by
    rw [hhive, Registry.hasKey_update, Registry.hasKey_createKey] at hp
    rcases hp with hle | hp
    · exact Or.inr ⟨_, List.mem_concat_self, hle⟩
    · refine (h.made p hp).imp_right ?_
      rintro ⟨event, hevent, hle⟩
      exact ⟨event, List.mem_append_left _ hevent, hle⟩

/-- A failing answer settles nothing. -/
theorem settle_error (op : Op) (e : Failure) (slots : Slot → Option RegData) :
    settle [(op, .error e)] slots = slots :=
  rfl

/-- Clearing what is not there settles nothing. -/
theorem settle_clear {q : Slot} {slots : Slot → Option RegData}
    (h : slots q = none) : settle [(.clear q, .ok ())] slots = slots := by
  have hsame := Function.update_eq_self q slots
  rwa [h] at hsame

theorem AsAnswered.step (h : AsAnswered hive H s) (hsound : Sound s a) :
    AsAnswered hive (H ++ [(a.op, (a.perform s).2)]) (a.perform s).1 := by
  have hperformed := performed s a
  generalize a.perform s = out at hperformed
  cases hperformed with
  | done s' hhive => exact h.done hhive
  | failed s' e path hpath hhive =>
      exact h.opened (fun slots _ => settle_error a.op e slots) hpath hhive
  | refused s' path hrefused hpath hhive =>
      have hnone := hsound hrefused
      cases a with
      | write => exact hrefused.elim
      | clear create delete q =>
          exact h.opened (fun slots hslots => settle_clear (hslots.trans hnone))
            hpath hhive

/-- In every run of writes and clears on every hive, with any failures, the
slots hold what the answers say, the other values are those before the run,
and no key is gone or made but on the way to a slot. -/
theorem bindings_as_answered (h : (machine hive).Run Sound H s) :
    AsAnswered hive H s := by
  refine h.invariant ?_ ?_
  · exact ⟨rfl, fun _ _ _ => rfl, fun _ hp => hp, fun _ hp => Or.inl hp⟩
  · intro H es s s' a h hsound hstep
    obtain ⟨rfl, rfl⟩ := Prod.mk.inj (Option.some.inj hstep)
    exact h.step hsound

end Runs

/-- `E_INVALIDARG` as an error. -/
def invalidArgument : Failure where
  code := HResult.eInvalidarg
  failing := by decide

theorem stored_empty (q : Slot) : stored Registry.empty q = none := by
  simp only [stored, Registry.value, Registry.empty]
  split <;> rfl

/-- A slot is cleared in vain, bound, and a second slot is not bound. -/
theorem bindings_as_answered_two_slots :
    let sfx := categorySlot .capture (Clsid.fromU128 1) .sfx
    let mfx := categorySlot .capture (Clsid.fromU128 1) .mfx
    ∃ s, AsAnswered Registry.empty
        [(.clear sfx, .ok ()), (.write sfx fmtidFx, .ok ()),
          (.write mfx fmtidFx, .error invalidArgument)] s ∧
      stored s.hive sfx = some (bindingData fmtidFx) ∧
      stored s.hive mfx = none := by
  intro sfx mfx
  have hrun : ∃ s, (machine Registry.empty).Run Sound
      [(.clear sfx, .ok ()), (.write sfx fmtidFx, .ok ()),
        (.write mfx fmtidFx, .error invalidArgument)] s := by
    let clear : Attempt := .clear (.failed invalidArgument 3) .ok sfx
    let bind : Attempt := .write .ok .ok sfx fmtidFx
    let fail : Attempt := .write .ok (.failed invalidArgument) mfx fmtidFx
    have hclear := Machine.Run.next (M := machine Registry.empty) (G := Sound)
      (a := clear) .start (fun _ => stored_empty sfx) rfl
    have hbind := Machine.Run.next (a := bind) hclear False.elim rfl
    exact ⟨_, Machine.Run.next (a := fail) hbind False.elim rfl⟩
  obtain ⟨s, hrun⟩ := hrun
  have hanswered := bindings_as_answered hrun
  have hne : mfx ≠ sfx := by
    rw [Ne, categorySlot_inj]
    simp
  have hslots : stored s.hive = Function.update
      (Function.update (stored Registry.empty) sfx none) sfx
      (some (bindingData fmtidFx)) := hanswered.slots
  refine ⟨s, hanswered, ?_, ?_⟩
  · rw [hslots, Function.update_self]
  · rw [hslots, Function.update_of_ne hne, Function.update_of_ne hne]
    exact stored_empty mfx

end TympanApo.FxProperties
