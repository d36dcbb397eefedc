import TympanApo.Realtime.RingInvariant

/-!
# Stable answers of the ring

`is_full` and `is_empty` may be stale when they are acted on, but only in one
direction: the other side moves away from the condition that was tested.  An
answer `false` therefore holds until the asking side acts on it, whatever the
other side does in between and however far the indices have wrapped.
-/

namespace TympanApo.Realtime.Ring

open TympanApo.Support

variable {w : ℕ} {α : Type*} {c : Capacity w}

/-! ## Promises -/

/-- A call of `try_push` has returned. -/
def IsPushReturn : Event α → Prop
  | .pushReturned _ _ => True
  | _ => False

/-- A call of `try_pop` has returned. -/
def IsPopReturn : Event α → Prop
  | .popReturned _ => True
  | _ => False

/-- `is_full` has returned `false`, and no push has returned since. -/
def RoomPromised (H : List (Event α)) : Prop :=
  Standing (· = .isFullReturned false) IsPushReturn H

/-- `is_empty` has returned `false`, and no pop has returned since. -/
def ItemPromised (H : List (Event α)) : Prop :=
  Standing (· = .isEmptyReturned false) IsPopReturn H

/-- A call that returns after a promise keeps it. -/
def PromiseKept (H : List (Event α)) : Event α → Prop
  | .pushReturned _ result => RoomPromised H → result = .ok ()
  | .popReturned result => ItemPromised H → result.isSome
  | _ => True

/-- While a promise stands, so does the condition it was made on. -/
structure Promises (c : Capacity w) (H : List (Event α)) : Prop where
  room : RoomPromised H → (pushed H).length < (popped H).length + c.val.toNat
  item : ItemPromised H → (popped H).length < (pushed H).length

theorem promises_nil (c : Capacity w) : Promises c ([] : List (Event α)) where
  room h := absurd h not_standing_nil
  item h := absurd h not_standing_nil

/-- The other side's returns only widen a condition; the own side's end the
promise. -/
theorem Promises.concat {H : List (Event α)} {e : Event α}
    (h : Promises c H)
    (hroom : e = .isFullReturned false →
      (pushed H).length < (popped H).length + c.val.toNat)
    (hitem : e = .isEmptyReturned false →
      (popped H).length < (pushed H).length) : Promises c (H ++ [e]) := by
  constructor
  · intro hpromised
    have hbefore : (pushed H).length < (popped H).length + c.val.toNat := by
      rcases hpromised.of_concat with hmade | ⟨hold, -⟩
      · exact hroom hmade
      · exact h.room hold
    have hpush : pushed [e] = [] := by
      rcases hpromised.of_concat with rfl | ⟨-, hended⟩
      · rfl
      · cases e with
        | pushReturned value result => exact absurd trivial hended
        | isFullReturned | popReturned | isEmptyReturned | uninitRead => rfl
    rw [pushed_append, popped_append, hpush, List.append_nil,
      List.length_append]
    omega
  · intro hpromised
    have hbefore : (popped H).length < (pushed H).length := by
      rcases hpromised.of_concat with hmade | ⟨hold, -⟩
      · exact hitem hmade
      · exact h.item hold
    have hpop : popped [e] = [] := by
      rcases hpromised.of_concat with rfl | ⟨-, hended⟩
      · rfl
      · cases e with
        | popReturned result => exact absurd trivial hended
        | pushReturned | isFullReturned | isEmptyReturned | uninitRead => rfl
    rw [pushed_append, popped_append, hpop, List.append_nil,
      List.length_append]
    omega

theorem Promises.transition {H es : List (Event α)} {s s' : State α c}
    (h : Promises c H) (hinv : CounterInvariant H s)
    (htrans : Transition s es s') : Promises c (H ++ es) := by
  have hprod := hinv.producer
  have hcons := hinv.consumer
  cases htrans with
  | isFullReturn tail hpc =>
      rw [hpc] at hprod
      obtain rfl := hprod
      refine h.concat ?_ (by simp)
      intro hfalse
      apply hinv.room_of_not_full
      simpa using hfalse
  | isEmptyReturn head hpc =>
      rw [hpc] at hcons
      obtain rfl := hcons
      refine h.concat (by simp) ?_
      intro hfalse
      apply hinv.item_of_not_empty
      simpa using hfalse
  | pushFull | pushPublish | popEmpty | popUninit | popPublish =>
      exact h.concat (by simp) (by simp)
  | pushLoadTail | pushAdmit | pushWrite | isFullLoadTail | popLoadHead
  | popAdmit | popTake | isEmptyLoadHead =>
      rwa [List.append_nil]

/-- A refusal finds the condition that a promise would have excluded. -/
theorem Promises.kept {H es : List (Event α)} {s s' : State α c}
    (h : Promises c H) (hinv : CounterInvariant H s)
    (htrans : Transition s es s') (hH : Justified PromiseKept H) :
    Justified PromiseKept (H ++ es) := by
  have hprod := hinv.producer
  have hcons := hinv.consumer
  cases htrans with
  | pushFull value tail hpc hfull =>
      rw [hpc] at hprod
      obtain rfl := hprod
      rw [hinv.head_eq,
        sub_eq_capacity_iff c hinv.popped_le hinv.pushed_le] at hfull
      refine hH.concat ?_
      intro hpromised
      have hroom := h.room hpromised
      omega
  | popEmpty head hpc hempty =>
      rw [hpc] at hcons
      obtain rfl := hcons
      rw [hinv.tail_eq,
        head_eq_tail_iff c hinv.popped_le hinv.pushed_le] at hempty
      refine hH.concat ?_
      intro hpromised
      have hitem := h.item hpromised
      omega
  | pushPublish => exact hH.concat fun _ => rfl
  | popPublish => exact hH.concat fun _ => rfl
  | isFullReturn | popUninit | isEmptyReturn => exact hH.concat trivial
  | pushLoadTail | pushAdmit | pushWrite | isFullLoadTail | popLoadHead
  | popAdmit | popTake | isEmptyLoadHead =>
      rwa [List.append_nil]

/-- Every promise of every run is kept, wrapped or not. -/
theorem promises_of_reaches {H : List (Event α)} {s : State α c}
    (h : (machine α c).Reaches H s) :
    Promises c H ∧ Justified PromiseKept H := by
  refine invariant_of_counters
    (I := fun H _ => Promises c H ∧ Justified PromiseKept H)
    ⟨promises_nil c, justified_nil _⟩ ?_ h
  rintro H es s s' a hcount ⟨hpromises, hkept⟩ _ htrans
  exact ⟨hpromises.transition hcount htrans,
    hpromises.kept hcount htrans hkept⟩

/-! ## Calls complete -/

/-- Atomic steps left until the producer's call returns. -/
def ProducerPc.stepsLeft : ProducerPc w α → ℕ
  | .idle => 0
  | .pushLoadedTail _ _ => 3
  | .pushAdmitted _ _ => 2
  | .pushWritten _ _ => 1
  | .isFullLoadedTail _ => 1

/-- Atomic steps left until the consumer's call returns. -/
def ConsumerPc.stepsLeft : ConsumerPc w α → ℕ
  | .idle => 0
  | .popLoadedHead _ => 3
  | .popAdmitted _ => 2
  | .popRead _ _ => 1
  | .isEmptyLoadedHead _ => 1

/-- Whether an action is the producer's. -/
def Action.isProducer : Action α → Bool
  | .tryPush _ => true
  | .isFull => true
  | .producerStep => true
  | _ => false

theorem producerStep_completes {s : State α c} (h : s.producer ≠ .idle) :
    ∃ s' es, producerStep s = some (s', es) ∧
      s'.producer.stepsLeft < s.producer.stepsLeft := by
  unfold producerStep
  split
  next hpc => exact absurd hpc h
  next value tail hpc =>
    rw [hpc]
    split
    next => exact ⟨_, _, rfl, by simp [ProducerPc.stepsLeft]⟩
    next => exact ⟨_, _, rfl, by simp [ProducerPc.stepsLeft]⟩
  next value tail hpc => exact ⟨_, _, rfl, by simp [hpc, ProducerPc.stepsLeft]⟩
  next value tail hpc => exact ⟨_, _, rfl, by simp [hpc, ProducerPc.stepsLeft]⟩
  next tail hpc => exact ⟨_, _, rfl, by simp [hpc, ProducerPc.stepsLeft]⟩

/-- Every slot that an index up to `tail` stands for has been written, and a
slot once written stays so, even when the indices share it. -/
structure WrittenInvariant (H : List (Event α)) (s : State α c) : Prop where
  slots : ∀ i < (pushed H).length,
    (s.shared.buf (slot c (BitVec.ofNat w i))).isSome
  written : ∀ value tail, s.producer = .pushWritten value tail →
    (s.shared.buf (slot c tail)).isSome

/-- A step that pushes nothing and leaves the slots alone. -/
theorem WrittenInvariant.of_quiet {H es : List (Event α)} {s s' : State α c}
    (h : WrittenInvariant H s) (hpushed : pushed es = [])
    (hbuf : s'.shared.buf = s.shared.buf)
    (hpc : ∀ value tail, s'.producer = .pushWritten value tail →
      s.producer = .pushWritten value tail) : WrittenInvariant (H ++ es) s' := by
  constructor
  · rw [pushed_append, hpushed, List.append_nil, hbuf]
    exact h.slots
  · intro value tail hwritten
    rw [hbuf]
    exact h.written value tail (hpc value tail hwritten)

theorem WrittenInvariant.transition {H es : List (Event α)} {s s' : State α c}
    (h : WrittenInvariant H s) (hinv : CounterInvariant H s)
    (htrans : Transition s es s') : WrittenInvariant (H ++ es) s' := by
  cases htrans with
  | pushWrite value tail hpc =>
      rw [List.append_nil]
      constructor
      · intro i hi
        by_cases hslot : slot c (BitVec.ofNat w i) = slot c tail
        · simp [hslot]
        · simpa [Function.update_of_ne hslot] using h.slots i hi
      · intro value' tail' hpc'
        simp only [ProducerPc.pushWritten.injEq] at hpc'
        simp [hpc'.2]
  | pushPublish value tail hpc =>
      have hprod := hinv.producer
      rw [hpc] at hprod
      constructor
      · intro i hi
        rw [pushed_append, List.length_append] at hi
        by_cases hold : i < (pushed H).length
        · exact h.slots i hold
        · obtain rfl : i = (pushed H).length := by
            simp only [pushed_pushOk, List.length_singleton] at hi
            omega
          rw [← hprod.1]
          exact h.written value tail hpc
      · intro value' tail' hpc'
        cases hpc'
  | pushLoadTail | pushFull | pushAdmit | isFullLoadTail | isFullReturn =>
      exact h.of_quiet rfl rfl (by simp)
  | popLoadHead | popEmpty | popAdmit | popTake | popUninit | popPublish
  | isEmptyLoadHead | isEmptyReturn =>
      exact h.of_quiet rfl rfl fun _ _ hpc => hpc

theorem writtenInvariant_of_reaches {H : List (Event α)} {s : State α c}
    (h : (machine α c).Reaches H s) : WrittenInvariant H s :=
  invariant_of_counters (I := WrittenInvariant)
    ⟨by simp, by simp [spsc]⟩
    (fun hcount hwritten _ htrans => hwritten.transition hcount htrans) h

/-- An admitted pop finds a written slot, so it does not stop at it. -/
theorem consumerStep_completes {H : List (Event α)} {s : State α c}
    (hinv : CounterInvariant H s) (hwritten : WrittenInvariant H s)
    (h : s.consumer ≠ .idle) :
    ∃ s' es, consumerStep s = some (s', es) ∧
      s'.consumer.stepsLeft < s.consumer.stepsLeft := by
  have hcons := hinv.consumer
  unfold consumerStep
  split
  next hpc => exact absurd hpc h
  next head hpc =>
    rw [hpc]
    split
    next => exact ⟨_, _, rfl, by simp [ConsumerPc.stepsLeft]⟩
    next => exact ⟨_, _, rfl, by simp [ConsumerPc.stepsLeft]⟩
  next head hpc =>
    rw [hpc] at hcons
    obtain ⟨rfl, hitem⟩ := hcons
    obtain ⟨value, hvalue⟩ :=
      Option.isSome_iff_exists.mp (hwritten.slots _ hitem)
    rw [hvalue]
    exact ⟨_, _, rfl, by simp [hpc, ConsumerPc.stepsLeft]⟩
  next head value hpc => exact ⟨_, _, rfl, by simp [hpc, ConsumerPc.stepsLeft]⟩
  next head hpc => exact ⟨_, _, rfl, by simp [hpc, ConsumerPc.stepsLeft]⟩

/-- A step of one side leaves the other side where it is. -/
theorem step_other_pc {s s' : State α c} {a : Action α} {es : List (Event α)}
    (h : step s a = some (s', es)) :
    if a.isProducer then s'.consumer = s.consumer
    else s'.producer = s.producer := by
  cases a with
  | tryPush value =>
      simp only [step] at h
      split at h <;> cases h
      rfl
  | isFull =>
      simp only [step] at h
      split at h <;> cases h
      rfl
  | producerStep =>
      simp only [step, producerStep] at h
      repeat' split at h
      all_goals cases h
      all_goals rfl
  | tryPop =>
      simp only [step] at h
      split at h <;> cases h
      rfl
  | isEmpty =>
      simp only [step] at h
      split at h <;> cases h
      rfl
  | consumerStep =>
      simp only [step, consumerStep] at h
      repeat' split at h
      all_goals cases h
      all_goals rfl

/-! ## Stability -/

/-- What `is_full` and `is_empty` are worth after a run with history `H`: the
next call keeps what they said, and it returns after at most three further
steps of its own side, which the other side cannot prevent. -/
structure Stable (H : List (Event α)) (s : State α c) : Prop where
  kept : Justified PromiseKept H
  pushCompletes : s.producer ≠ .idle → ∃ s' es,
    step s .producerStep = some (s', es) ∧
      s'.producer.stepsLeft < s.producer.stepsLeft
  popCompletes : s.consumer ≠ .idle → ∃ s' es,
    step s .consumerStep = some (s', es) ∧
      s'.consumer.stepsLeft < s.consumer.stepsLeft
  undisturbed : ∀ a s' es, step s a = some (s', es) →
    if a.isProducer then s'.consumer = s.consumer
    else s'.producer = s.producer

/-- An answer `false` of `is_full` or `is_empty` holds until the next call of
the same side, in every run of every ring. -/
theorem stable_of_reaches {H : List (Event α)} {s : State α c}
    (h : (machine α c).Reaches H s) : Stable H s where
  kept := (promises_of_reaches h).2
  pushCompletes := producerStep_completes
  popCompletes := consumerStep_completes (counterInvariant_of_reaches h)
    (writtenInvariant_of_reaches h)
  undisturbed _ _ _ := step_other_pc

/-- With one slot taken out of two, `is_full` answers `false` while the
consumer is at work, and the push that follows succeeds. -/
theorem stable_two_slots :
    ∃ s : State ℕ (⟨2#8, by decide⟩ : Capacity 8),
      Stable
        [.pushReturned 10 (.ok ()), .isFullReturned false,
          .popReturned (some 10), .isEmptyReturned true,
          .pushReturned 20 (.ok ())] s :=
  ⟨_, stable_of_reaches (Machine.reaches_of_exec
    [.tryPush 10, .producerStep, .producerStep, .producerStep, .tryPop,
      .isFull, .producerStep, .consumerStep, .consumerStep, .consumerStep,
      .isEmpty, .tryPush 20, .consumerStep, .producerStep, .producerStep,
      .producerStep] rfl)⟩

end TympanApo.Realtime.Ring
