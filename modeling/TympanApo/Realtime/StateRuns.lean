import TympanApo.Realtime.State
import TympanApo.Support.Run
import Mathlib.Data.List.Induction
import Mathlib.Logic.Function.Basic

/-!
# Threads sharing a state cell

Any number of threads call the operations of one `StateCell`.  An operation
makes one atomic access to the byte, so a run is an interleaving of accesses.
The byte is raw here and a load of a bad byte shows as a panic; every access of
a run is explained by the operations that succeeded before it.
-/

namespace TympanApo.Realtime.StateRuns

open TympanApo.Support

variable {τ : Type*}

/-! ## Operations on the byte -/

/-- The operations of a cell. -/
inductive Op
  | init
  | lock
  | unlock
  | release
  | load
  deriving DecidableEq, Repr

/-- What an operation returns; the last is the panic of `State::from_u8`. -/
inductive Result
  | done
  | refused (error : TransitionError)
  | observed (state : State)
  | panicked
  deriving DecidableEq, Repr

/-- `State::from_u8` as the last step of an operation. -/
def observe (byte : UInt8) (k : State → Result) : Result :=
  match State.fromU8 byte with
  | some state => k state
  | none => .panicked

/-- `StateCell::transition`: the result, and the byte it leaves. -/
def transition (from_ to_ : State) (byte : UInt8) : Result × UInt8 :=
  match compareExchange byte from_.asU8 to_.asU8 with
  | (.ok _, byte) => (.done, byte)
  | (.error actualByte, byte) =>
      (observe actualByte fun actual =>
        .refused { expected := from_, attempted := to_, actual }, byte)

/-- The atomic access of an operation. -/
def Op.access : Op → UInt8 → Result × UInt8
  | .init, byte => transition .uninitialized .initialized byte
  | .lock, byte => transition .initialized .locked byte
  | .unlock, byte => transition .locked .initialized byte
  | .release, byte => (observe byte .observed, State.uninitialized.asU8)
  | .load, byte => (observe byte .observed, byte)

/-- The states an operation moves between, if it is a transition. -/
def Op.edge : Op → Option (State × State)
  | .init => some (.uninitialized, .initialized)
  | .lock => some (.initialized, .locked)
  | .unlock => some (.locked, .initialized)
  | .release => none
  | .load => none

/-- The state after an operation that succeeds. -/
def Op.target (op : Op) (state : State) : State :=
  match op with
  | .init => .initialized
  | .lock => .locked
  | .unlock => .initialized
  | .release => .uninitialized
  | .load => state

theorem Op.edge_cases (op : Op) :
    op = .release ∨ op = .load ∨ ∃ from_ to_,
      op.edge = some (from_, to_) ∧ ∀ state, op.target state = to_ := by
  cases op <;> simp [Op.edge, Op.target]

/-- A state is left by at most one transition. -/
theorem Op.edge_injective {op op' : Op} {from_ to_ to_' : State}
    (h : op.edge = some (from_, to_)) (h' : op'.edge = some (from_, to_')) :
    op = op' := by
  cases op <;> cases op' <;> cases h <;> cases h' <;> rfl

theorem access_of_edge {op : Op} {from_ to_ : State}
    (h : op.edge = some (from_, to_)) (state : State) :
    op.access state.asU8 =
      if state = from_ then (.done, to_.asU8)
      else (.refused { expected := from_, attempted := to_, actual := state },
        state.asU8) := by
  cases op <;> cases h <;> cases state <;> rfl

theorem access_release (state : State) :
    Op.release.access state.asU8 =
      (.observed state, State.uninitialized.asU8) := by
  cases state <;> rfl

theorem access_load (state : State) :
    Op.load.access state.asU8 = (.observed state, state.asU8) := by
  cases state <;> rfl

/-- On the byte of a cell a transition does what the cell does. -/
theorem transition_state (cell : StateCell) (from_ to_ : State) :
    transition from_ to_ cell.state =
      ((match (cell.transition from_ to_).1 with
        | .ok () => .done
        | .error e => .refused e),
        (cell.transition from_ to_).2.state) := by
  by_cases h : cell.load = from_
  · rw [StateCell.transition_of_load_eq to_ h, ← cell.asU8_load, h]
    simp [transition, compareExchange, StateCell.holding]
  · have hbyte : cell.load.asU8 ≠ from_.asU8 := fun hbyte =>
      h ((cell.state_eq_asU8_iff from_).mp (cell.asU8_load ▸ hbyte))
    rw [StateCell.transition_of_load_ne to_ h, ← cell.asU8_load]
    simp [transition, compareExchange, observe, hbyte]

/-! ## Runs -/

/-- An access: who made it, for which operation, the byte it found, the result
and the byte it left. -/
structure Access (τ : Type*) where
  thread : τ
  op : Op
  before : UInt8
  result : Result
  after : UInt8

/-- The byte, and the operation that each thread is about to make. -/
structure Shared (τ : Type*) where
  byte : UInt8
  pending : τ → Option Op

inductive Action (τ : Type*)
  | call (t : τ) (op : Op)
  | access (t : τ)

/-- `StateCell::new`, with no call pending. -/
def Shared.new : Shared τ where
  byte := State.uninitialized.asU8
  pending _ := none

/-- A thread without a call makes one; a thread with a call makes its access
and returns. -/
def step [DecidableEq τ] (s : Shared τ) :
    Action τ → Option (Shared τ × List (Access τ))
  | .call t op =>
      match s.pending t with
      | some _ => none
      | none =>
          some ({ s with pending := Function.update s.pending t (some op) }, [])
  | .access t =>
      match s.pending t with
      | none => none
      | some op =>
          let (result, byte) := op.access s.byte
          some ({ byte, pending := Function.update s.pending t none },
            [{ thread := t, op, before := s.byte, result, after := byte }])

/-- Threads sharing one cell. -/
def machine (τ : Type*) [DecidableEq τ] :
    Machine (Shared τ) (Action τ) (Access τ) where
  init := Shared.new
  step := step

/-! ## The state that the successful operations determine -/

/-- Whether the operation took effect. -/
def Access.succeeded (e : Access τ) : Bool :=
  e.op == .release || e.result == .done

/-- The operations that succeeded, in the order of their accesses. -/
def successes (H : List (Access τ)) : List Op :=
  (H.filter Access.succeeded).map Access.op

/-- The state that successful operations lead to. -/
def stateAfter (ops : List Op) : State :=
  ops.foldl (fun state op => op.target state) .uninitialized

/-- The state that a history leads to. -/
def held (H : List (Access τ)) : State :=
  stateAfter (successes H)

/-- An access is the one its operation makes in the state that the successful
operations before it determine. -/
def Explained (H : List (Access τ)) (e : Access τ) : Prop :=
  e.before = (held H).asU8 ∧ (e.result, e.after) = e.op.access e.before

theorem successes_append (H H' : List (Access τ)) :
    successes (H ++ H') = successes H ++ successes H' := by
  simp [successes]

theorem held_concat (H : List (Access τ)) (e : Access τ) :
    held (H ++ [e]) =
      if e.succeeded then e.op.target (held H) else held H := by
  unfold held stateAfter
  rw [successes_append, List.foldl_append]
  cases h : e.succeeded <;> simp [successes, h]

/-! ## Every access is explained -/

/-- A transition that is explained: it succeeds from the state it expects, and
otherwise reports the state and leaves it. -/
theorem Explained.transition {H : List (Access τ)} {e : Access τ}
    (h : Explained H e) {from_ to_ : State}
    (hedge : e.op.edge = some (from_, to_)) :
    (e.result, e.after) =
      if held H = from_ then (.done, to_.asU8)
      else (.refused { expected := from_, attempted := to_, actual := held H },
        (held H).asU8) := by
  rw [h.2, h.1, access_of_edge hedge]

theorem Explained.succeeded_iff {H : List (Access τ)} {e : Access τ}
    (h : Explained H e) {from_ to_ : State}
    (hedge : e.op.edge = some (from_, to_)) :
    e.succeeded = true ↔ held H = from_ := by
  have haccess := h.transition hedge
  have hop : e.op ≠ .release := by
    intro hop
    rw [hop] at hedge
    cases hedge
  rw [Access.succeeded]
  split at haccess <;> simp_all

/-- An explained access leaves the byte of the state it leads to. -/
theorem Explained.after_eq {H : List (Access τ)} {e : Access τ}
    (h : Explained H e) : e.after = (held (H ++ [e])).asU8 := by
  rw [held_concat]
  rcases e.op.edge_cases with hop | hop | ⟨from_, to_, hedge, htarget⟩
  · have haccess := h.2
    rw [h.1, hop, access_release] at haccess
    simp [Access.succeeded, hop, (Prod.mk.inj haccess).2, Op.target]
  · have haccess := h.2
    rw [h.1, hop, access_load] at haccess
    simp [Access.succeeded, hop, (Prod.mk.inj haccess).1,
      (Prod.mk.inj haccess).2]
  · have haccess := h.transition hedge
    have hsucceeded := h.succeeded_iff hedge
    rw [htarget]
    split at haccess
    next hheld => rw [if_pos (hsucceeded.mpr hheld), (Prod.mk.inj haccess).2]
    next hheld =>
      rw [if_neg fun hs => hheld (hsucceeded.mp hs), (Prod.mk.inj haccess).2]

/-- The invariant of a run: its accesses are explained, and the byte is that of
the state they lead to. -/
structure CellInvariant (H : List (Access τ)) (s : Shared τ) : Prop where
  explained : Justified Explained H
  byte_eq : s.byte = (held H).asU8

theorem cellInvariant_of_reaches [DecidableEq τ] {H : List (Access τ)}
    {s : Shared τ} (h : (machine τ).Reaches H s) : CellInvariant H s := by
  refine h.invariant ⟨justified_nil _, rfl⟩ ?_
  intro H es s s' a hinv _ hstep
  cases a with
  | call t op =>
      simp only [machine, step] at hstep
      split at hstep
      · cases hstep
      next =>
        cases hstep
        rw [List.append_nil]
        exact ⟨hinv.explained, hinv.byte_eq⟩
  | access t =>
      simp only [machine, step] at hstep
      split at hstep
      · cases hstep
      next op hpending =>
        cases hstep
        have hexplained : Explained H
            { thread := t, op, before := s.byte, result := (op.access s.byte).1
              after := (op.access s.byte).2 } := ⟨hinv.byte_eq, rfl⟩
        exact ⟨hinv.explained.concat hexplained, hexplained.after_eq⟩

/-! ## Between two releases -/

/-- The first `n` of alternating locks and unlocks. -/
def cycle (n : ℕ) : List Op :=
  (List.range n).map fun i => if i % 2 = 0 then .lock else .unlock

/-- The successful operations since a release, and the state they lead to. -/
def InSession (ops : List Op) (state : State) : Prop :=
  (ops = [] ∧ state = .uninitialized) ∨
    ∃ n, ops = .init :: cycle n ∧
      state = if n % 2 = 0 then .initialized else .locked

theorem cycle_succ (n : ℕ) :
    cycle (n + 1) = cycle n ++ [if n % 2 = 0 then .lock else .unlock] := by
  simp [cycle, List.range_succ]

theorem init_not_mem_cycle (n : ℕ) : Op.init ∉ cycle n := by
  intro hmem
  obtain ⟨i, -, hi⟩ := List.mem_map.mp hmem
  split at hi <;> cases hi

/-- One more transition of a session. -/
theorem InSession.concat {ops : List Op} {state to_ : State} {op : Op}
    (h : InSession ops state) (hedge : op.edge = some (state, to_)) :
    InSession (ops ++ [op]) to_ := by
  rcases h with ⟨rfl, rfl⟩ | ⟨n, rfl, rfl⟩
  · cases op <;> cases hedge
    exact Or.inr ⟨0, rfl, rfl⟩
  · refine Or.inr ⟨n + 1, ?_⟩
    rw [cycle_succ]
    by_cases hn : n % 2 = 0
    · rw [if_pos hn] at hedge
      have hn' : ¬ (n + 1) % 2 = 0 := by omega
      cases op <;> cases hedge
      simp [hn, hn']
    · rw [if_neg hn] at hedge
      have hn' : (n + 1) % 2 = 0 := by omega
      cases op <;> cases hedge
      simp [hn, hn']

/-- An access that is no release either leaves the state, or is a transition
from it. -/
theorem Explained.step {H : List (Access τ)} {e : Access τ}
    (h : Explained H e) (hop : e.op ≠ .release) :
    (e.succeeded = false ∧ held (H ++ [e]) = held H) ∨
      (e.succeeded = true ∧
        e.op.edge = some (held H, held (H ++ [e]))) := by
  rw [held_concat]
  cases hs : e.succeeded with
  | false => exact Or.inl ⟨rfl, rfl⟩
  | true =>
      refine Or.inr ⟨rfl, ?_⟩
      rcases e.op.edge_cases with hrelease | hload | ⟨from_, to_, hedge, htarget⟩
      · exact absurd hrelease hop
      · have haccess := h.2
        rw [h.1, hload, access_load] at haccess
        rw [Access.succeeded, hload, (Prod.mk.inj haccess).1] at hs
        cases hs
      · rw [if_pos rfl, htarget, (h.succeeded_iff hedge).mp hs, hedge]

/-- A history at whose end the cell has just been made or released. -/
def Fresh (H : List (Access τ)) : Prop :=
  H = [] ∨ ∃ H₀ e, H = H₀ ++ [e] ∧ e.op = .release

theorem Fresh.held {H : List (Access τ)} (h : Fresh H) :
    held H = .uninitialized := by
  rcases h with rfl | ⟨H₀, e, rfl, hop⟩
  · rfl
  · rw [held_concat, if_pos (by simp [Access.succeeded, hop]), hop]
    rfl

theorem inSession_of_explained {H seg : List (Access τ)}
    (h : Justified Explained (H ++ seg)) (hfresh : Fresh H)
    (hseg : ∀ e ∈ seg, e.op ≠ .release) :
    InSession (successes seg) (held (H ++ seg)) := by
  induction seg using List.reverseRecOn with
  | nil =>
      rw [List.append_nil]
      exact Or.inl ⟨rfl, hfresh.held⟩
  | append_singleton seg e ih =>
      rw [← List.append_assoc] at h ⊢
      have hold := ih h.of_append fun e' he' =>
        hseg e' (List.mem_append_left _ he')
      rw [successes_append]
      rcases h.last.step (hseg e (by simp)) with ⟨hs, hsame⟩ | ⟨hs, hedge⟩
      · rw [hsame]
        simpa [successes, hs] using hold
      · have hone : successes [e] = [e.op] := by simp [successes, hs]
        rw [hone]
        exact hold.concat hedge

/-! ## Competing callers -/

/-- The calls of an operation in a history that succeed. -/
def winners (op : Op) (H : List (Access τ)) : List (Access τ) :=
  H.filter fun e => e.op == op && e.succeeded

/-- No access of the history brings the cell to `state`. -/
def NeverTo (state : State) (H : List (Access τ)) : Prop :=
  ∀ e ∈ H, e.op ≠ .release ∧
    (e.succeeded = true → ∀ from_, e.op.edge ≠ some (from_, state))

/-- Once the state has been left, nobody wins. -/
theorem winners_of_left {H window : List (Access τ)} {op : Op}
    {from_ to_ : State} (hedge : op.edge = some (from_, to_))
    (h : Justified Explained (H ++ window)) (hleft : held H ≠ from_)
    (hnever : NeverTo from_ window) : winners op window = [] := by
  induction window generalizing H with
  | nil => rfl
  | cons e window ih =>
      obtain ⟨hfirst, hrest⟩ := List.forall_mem_cons.mp hnever
      rw [List.append_cons] at h
      have hexplained := h.of_append.last
      have hlost : (e.op == op && e.succeeded) = false := by
        rw [Bool.and_eq_false_imp]
        intro hop
        have hop := beq_iff_eq.mp hop
        rw [← hop] at hedge
        rw [← Bool.not_eq_true, hexplained.succeeded_iff hedge]
        exact hleft
      have hleft' : held (H ++ [e]) ≠ from_ := by
        rcases hexplained.step hfirst.1 with ⟨-, hsame⟩ | ⟨hs, hmove⟩
        · rw [hsame]
          exact hleft
        · intro heq
          rw [heq] at hmove
          exact hfirst.2 hs _ hmove
      rw [winners, List.filter_cons, if_neg (by simp [hlost])]
      exact ih h hleft' hrest

/-- Of the calls of a transition that compete for a state, one wins. -/
theorem winners_of_competing {H window : List (Access τ)} {op : Op}
    {from_ to_ : State} (hedge : op.edge = some (from_, to_))
    (h : Justified Explained (H ++ window)) (hheld : held H = from_)
    (hnever : NeverTo from_ window) (hcall : ∃ e ∈ window, e.op = op) :
    (winners op window).length = 1 := by
  induction window generalizing H with
  | nil =>
      obtain ⟨e, he, -⟩ := hcall
      cases he
  | cons e window ih =>
      obtain ⟨hfirst, hrest⟩ := List.forall_mem_cons.mp hnever
      rw [List.append_cons] at h
      have hexplained := h.of_append.last
      rw [winners, List.filter_cons]
      by_cases hop : e.op = op
      · have hs : e.succeeded = true :=
          (hexplained.succeeded_iff (hop ▸ hedge)).mpr hheld
        have hleft : held (H ++ [e]) ≠ from_ := by
          rcases hexplained.step hfirst.1 with ⟨hs', -⟩ | ⟨-, hmove⟩
          · rw [hs] at hs'
            cases hs'
          · intro heq
            rw [heq] at hmove
            exact hfirst.2 hs _ hmove
        rw [if_pos (by simp [hop, hs]), List.length_cons]
        have hlost := winners_of_left hedge h hleft hrest
        rw [winners] at hlost
        rw [hlost]
        rfl
      · have hcall' : ∃ e ∈ window, e.op = op := by
          obtain ⟨e', he', hop'⟩ := hcall
          rcases List.mem_cons.mp he' with rfl | he'
          · exact absurd hop' hop
          · exact ⟨e', he', hop'⟩
        have hheld' : held (H ++ [e]) = from_ := by
          rcases hexplained.step hfirst.1 with ⟨-, hsame⟩ | ⟨-, hmove⟩
          · rw [hsame, hheld]
          · rw [hheld] at hmove
            exact absurd (Op.edge_injective hmove hedge) hop
        rw [if_neg (by simp [hop])]
        exact ih h hheld' hrest hcall'

/-! ## The law of the cell -/

/-- What a cell guarantees after any run. -/
structure Lawful (H : List (Access τ)) (s : Shared τ) : Prop where
  /-- The byte is always that of a state. -/
  legal : s.byte = 0 ∨ s.byte = 1 ∨ s.byte = 2
  never_panics : ∀ e ∈ H, e.result ≠ .panicked
  determined : State.fromU8 s.byte = some (held H)
  /-- Between releases there is at most one initialization, and the locks and
  unlocks after it alternate. -/
  sessions : ∀ H₁ seg H₂, H = H₁ ++ seg ++ H₂ → Fresh H₁ →
    (∀ e ∈ seg, e.op ≠ .release) → (successes seg).count .init ≤ 1 ∧
      (successes seg = [] ∨ ∃ n, successes seg = .init :: cycle n)
  /-- Of the calls of a transition that compete for a state, one wins. -/
  one_winner : ∀ H₁ window H₂ op from_ to_, H = H₁ ++ window ++ H₂ →
    op.edge = some (from_, to_) → held H₁ = from_ → NeverTo from_ window →
      (∃ e ∈ window, e.op = op) → (winners op window).length = 1
  /-- A failed transition changes nothing and reports the state it found. -/
  refused : ∀ H₁ e H₂ error, H = H₁ ++ e :: H₂ → e.result = .refused error →
    e.op.edge = some (error.expected, error.attempted) ∧ e.after = e.before ∧
      State.fromU8 e.before = some error.actual ∧
      error.actual = held H₁ ∧ error.actual ≠ error.expected
  /-- A load or a release returns the state it found. -/
  observed : ∀ H₁ e H₂ state, H = H₁ ++ e :: H₂ →
    e.result = .observed state → state = held H₁

theorem Explained.not_panicked {H : List (Access τ)} {e : Access τ}
    (h : Explained H e) : e.result ≠ .panicked := by
  have haccess := h.2
  rw [h.1] at haccess
  rcases e.op.edge_cases with hop | hop | ⟨from_, to_, hedge, -⟩
  · rw [hop, access_release] at haccess
    simp [(Prod.mk.inj haccess).1]
  · rw [hop, access_load] at haccess
    simp [(Prod.mk.inj haccess).1]
  · rw [access_of_edge hedge] at haccess
    split at haccess <;> simp [(Prod.mk.inj haccess).1]

theorem Explained.refused {H : List (Access τ)} {e : Access τ}
    (h : Explained H e) {error : TransitionError}
    (hrefused : e.result = .refused error) :
    e.op.edge = some (error.expected, error.attempted) ∧ e.after = e.before ∧
      State.fromU8 e.before = some error.actual ∧
      error.actual = held H ∧ error.actual ≠ error.expected := by
  rcases e.op.edge_cases with hop | hop | ⟨from_, to_, hedge, -⟩
  · have haccess := h.2
    rw [h.1, hop, access_release, hrefused] at haccess
    cases (Prod.mk.inj haccess).1
  · have haccess := h.2
    rw [h.1, hop, access_load, hrefused] at haccess
    cases (Prod.mk.inj haccess).1
  · have haccess := h.transition hedge
    rw [hrefused] at haccess
    split at haccess
    next => cases (Prod.mk.inj haccess).1
    next hheld =>
      obtain ⟨hresult, hafter⟩ := Prod.mk.inj haccess
      obtain rfl := Result.refused.inj hresult
      exact ⟨hedge, by rw [hafter, h.1], by rw [h.1, State.fromU8_asU8], rfl,
        hheld⟩

theorem Explained.observed {H : List (Access τ)} {e : Access τ}
    (h : Explained H e) {state : State} (hobserved : e.result = .observed state) :
    state = held H := by
  rcases e.op.edge_cases with hop | hop | ⟨from_, to_, hedge, -⟩
  · have haccess := h.2
    rw [h.1, hop, access_release, hobserved] at haccess
    exact Result.observed.inj (Prod.mk.inj haccess).1
  · have haccess := h.2
    rw [h.1, hop, access_load, hobserved] at haccess
    exact Result.observed.inj (Prod.mk.inj haccess).1
  · have haccess := h.transition hedge
    rw [hobserved] at haccess
    split at haccess <;> cases (Prod.mk.inj haccess).1

/-- For any number of threads and any interleaving of the operations, the cell
is lawful. -/
theorem lawful_of_reaches [DecidableEq τ] {H : List (Access τ)} {s : Shared τ}
    (h : (machine τ).Reaches H s) : Lawful H s := by
  obtain ⟨hexplained, hbyte⟩ := cellInvariant_of_reaches h
  refine ⟨?_, ?_, ?_, ?_, ?_, ?_, ?_⟩
  · rw [hbyte]
    cases held H <;> simp [State.asU8]
  · intro e he
    obtain ⟨H₁, H₂, rfl⟩ := List.append_of_mem he
    exact (hexplained H₁ e H₂ rfl).not_panicked
  · rw [hbyte, State.fromU8_asU8]
  · rintro H₁ seg H₂ rfl hfresh hseg
    rcases inSession_of_explained hexplained.of_append hfresh hseg with
      ⟨hnone, -⟩ | ⟨n, hsome, -⟩
    · exact ⟨by simp [hnone], Or.inl hnone⟩
    · have hcount : (successes seg).count .init = 1 := by
        rw [hsome, List.count_cons_self,
          List.count_eq_zero_of_not_mem (init_not_mem_cycle n)]
      exact ⟨Nat.le_of_eq hcount, Or.inr ⟨n, hsome⟩⟩
  · rintro H₁ window H₂ op from_ to_ rfl hedge hheld hnever hcall
    exact winners_of_competing hedge hexplained.of_append hheld hnever hcall
  · rintro H₁ e H₂ error rfl hrefused
    exact (hexplained H₁ e H₂ rfl).refused hrefused
  · rintro H₁ e H₂ state rfl hobserved
    exact (hexplained H₁ e H₂ rfl).observed hobserved

/-- Two threads compete for the initialization of a cell. -/
theorem lawful_two_callers :
    ∃ H s, (machine (Fin 2)).Reaches H s ∧ H.length = 2 ∧ Lawful H s := by
  have hreach : (machine (Fin 2)).Reaches _ _ :=
    Machine.reaches_of_exec
      [.call 0 .init, .call 1 .init, .access 1, .access 0] rfl
  exact ⟨_, _, hreach, rfl, lawful_of_reaches hreach⟩

end TympanApo.Realtime.StateRuns
