/-!
# The lifecycle state cell

`realtime/state.rs`: the lifecycle states, the atomic byte that carries one of
them, and its compare-exchange transitions.
-/

namespace TympanApo.Realtime

/-- APO lifecycle state. -/
inductive State
  | uninitialized
  | initialized
  | locked
  deriving DecidableEq, Repr

namespace State

/-- `State as u8`. -/
def asU8 : State → UInt8
  | uninitialized => 0
  | initialized => 1
  | locked => 2

/-- `State::from_u8`; `none` is the panic on a byte that encodes no state. -/
def fromU8 (value : UInt8) : Option State :=
  if value = 0 then some uninitialized
  else if value = 1 then some initialized
  else if value = 2 then some locked
  else none

@[simp] theorem fromU8_asU8 (s : State) : fromU8 s.asU8 = some s := by
  cases s <;> rfl

theorem asU8_of_fromU8 {value : UInt8} {s : State}
    (h : fromU8 value = some s) : s.asU8 = value := by
  unfold fromU8 at h
  split at h
  next h0 =>
    cases h
    exact h0.symm
  split at h
  next h1 =>
    cases h
    exact h1.symm
  split at h
  next h2 =>
    cases h
    exact h2.symm
  · cases h

/-- `State::allows_process`. -/
def allowsProcess (self : State) : Bool :=
  self == locked

end State

/-- Outcome of a failed transition. -/
structure TransitionError where
  expected : State
  attempted : State
  actual : State
  deriving DecidableEq, Repr

/-- `AtomicU8::compare_exchange` on a byte: the result and the byte left. -/
def compareExchange (byte current new : UInt8) :
    Except UInt8 UInt8 × UInt8 :=
  if byte = current then (.ok byte, new) else (.error byte, byte)

/-- The atomic byte of the cell.  Only bytes of states are ever stored, so no
load can panic. -/
structure StateCell where
  state : UInt8
  legal : (State.fromU8 state).isSome
  deriving DecidableEq

namespace StateCell

/-- The cell that holds the byte of `s`. -/
def holding (s : State) : StateCell where
  state := s.asU8
  legal := by simp

/-- `StateCell::new`. -/
def new : StateCell :=
  holding .uninitialized

/-- `StateCell::load`. -/
def load (self : StateCell) : State :=
  (State.fromU8 self.state).get self.legal

/-- `StateCell::is_locked`. -/
def isLocked (self : StateCell) : Bool :=
  self.load == .locked

/-- `StateCell::transition`: the result and the cell it leaves. -/
def transition (self : StateCell) (from_ to_ : State) :
    Except TransitionError Unit × StateCell :=
  match h : compareExchange self.state from_.asU8 to_.asU8 with
  | (.ok _, byte) => (.ok (), ⟨byte, by
      unfold compareExchange at h
      split at h <;> cases h
      simp⟩)
  | (.error _, byte) => (.error
      { expected := from_, attempted := to_, actual := self.load }, ⟨byte, by
      unfold compareExchange at h
      split at h <;> cases h
      exact self.legal⟩)

/-- `StateCell::initialize`. -/
def initializeCell (self : StateCell) : Except TransitionError Unit × StateCell :=
  self.transition .uninitialized .initialized

/-- `StateCell::lock`. -/
def lock (self : StateCell) : Except TransitionError Unit × StateCell :=
  self.transition .initialized .locked

/-- `StateCell::unlock`. -/
def unlock (self : StateCell) : Except TransitionError Unit × StateCell :=
  self.transition .locked .initialized

/-- `StateCell::release`. -/
def release (self : StateCell) : State × StateCell :=
  (self.load, holding .uninitialized)

/-! ## The cell as a cell of states -/

@[simp] theorem load_holding (s : State) : (holding s).load = s := by
  simp [load, holding]

@[simp] theorem load_new : new.load = .uninitialized :=
  load_holding _

theorem asU8_load (cell : StateCell) : cell.load.asU8 = cell.state :=
  State.asU8_of_fromU8 (Option.some_get cell.legal).symm

/-- A cell is determined by the state it loads. -/
theorem eq_holding_load (cell : StateCell) : cell = holding cell.load := by
  cases cell with
  | mk state legal =>
      simp only [holding, mk.injEq]
      exact (asU8_load ⟨state, legal⟩).symm

theorem state_eq_asU8_iff (cell : StateCell) (s : State) :
    cell.state = s.asU8 ↔ cell.load = s := by
  constructor
  · intro h
    have hload : State.fromU8 cell.state = some s := by
      rw [h, State.fromU8_asU8]
    simp [load, hload]
  · rintro rfl
    exact (asU8_load cell).symm

/-- A transition from the state the cell holds succeeds. -/
theorem transition_of_load_eq {cell : StateCell} {from_ : State} (to_ : State)
    (h : cell.load = from_) :
    cell.transition from_ to_ = (.ok (), holding to_) := by
  have hbyte := (state_eq_asU8_iff cell from_).mpr h
  unfold transition
  split
  next heq =>
    simp only [compareExchange, hbyte, if_pos, Prod.mk.injEq] at heq
    simp [holding, ← heq.2]
  next heq =>
    simp [compareExchange, hbyte] at heq

/-- A transition from any other state fails, reports the state held and
changes nothing. -/
theorem transition_of_load_ne {cell : StateCell} {from_ : State} (to_ : State)
    (h : cell.load ≠ from_) :
    cell.transition from_ to_ =
      (.error { expected := from_, attempted := to_, actual := cell.load },
        cell) := by
  have hbyte : cell.state ≠ from_.asU8 := fun hbyte =>
    h ((state_eq_asU8_iff cell from_).mp hbyte)
  unfold transition
  split
  next heq =>
    simp [compareExchange, hbyte] at heq
  next heq =>
    simp only [compareExchange, if_neg hbyte, Prod.mk.injEq] at heq
    cases cell
    simp [← heq.2]

end StateCell

end TympanApo.Realtime
