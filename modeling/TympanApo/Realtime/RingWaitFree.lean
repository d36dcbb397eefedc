import TympanApo.Realtime.RingStability
import TympanApo.Support.WaitFree

/-!
# The ring is wait-free

Both sides of the ring as threads: a call in progress can always take its next
atomic step, and three of them end it, in every interleaving with the other
side.  For a pop this needs that the slot it has been admitted to was written.
-/

namespace TympanApo.Realtime.Ring

open TympanApo.Support

variable {w : ℕ} {α : Type*} {c : Capacity w}

/-- The producer and its calls `try_push` and `is_full`. -/
def producerThread (α : Type*) (c : Capacity w) :
    Thread (State α c) (Action α) (Event α) where
  left s :=
    match s.producer with
    | .idle => none
    | pc => some pc.stepsLeft
  own
    | .producerStep => true
    | _ => false
  returns
    | .pushReturned _ _ => true
    | .isFullReturned _ => true
    | _ => false

/-- The consumer and its calls `try_pop` and `is_empty`. -/
def consumerThread (α : Type*) (c : Capacity w) :
    Thread (State α c) (Action α) (Event α) where
  left s :=
    match s.consumer with
    | .idle => none
    | pc => some pc.stepsLeft
  own
    | .consumerStep => true
    | _ => false
  returns
    | .popReturned _ => true
    | .isEmptyReturned _ => true
    | _ => false

variable {s s' : State α c} {H es : List (Event α)} {a : Action α} {k : ℕ}

/-! ## The producer -/

theorem producer_left (h : (producerThread α c).left s = some k) :
    s.producer ≠ .idle ∧ s.producer.stepsLeft = k := by
  cases hpc : s.producer <;> simp_all [producerThread]

theorem producer_left_of_ne (h : s.producer ≠ .idle) :
    (producerThread α c).left s = some s.producer.stepsLeft := by
  cases hpc : s.producer <;> simp_all [producerThread]

theorem ProducerPc.stepsLeft_bounds {pc : ProducerPc w α} (h : pc ≠ .idle) :
    0 < pc.stepsLeft ∧ pc.stepsLeft ≤ 3 := by
  cases pc <;> simp_all [ProducerPc.stepsLeft]

/-- An own step of the producer returns or is followed by another one. -/
theorem producerStep_advances (hstep : producerStep s = some (s', es)) :
    (∃ e ∈ es, (producerThread α c).returns e = true) ∨
      s'.producer ≠ .idle ∧ s'.producer.stepsLeft + 1 = s.producer.stepsLeft := by
  unfold producerStep at hstep
  split at hstep
  next => cases hstep
  next value tail hpc =>
    split at hstep <;> cases hstep
    next => exact Or.inl ⟨_, List.mem_singleton_self _, rfl⟩
    next => exact Or.inr ⟨by simp, by rw [hpc]; rfl⟩
  next value tail hpc =>
    cases hstep
    exact Or.inr ⟨by simp, by rw [hpc]; rfl⟩
  next value tail hpc =>
    cases hstep
    exact Or.inl ⟨_, List.mem_singleton_self _, rfl⟩
  next tail hpc =>
    cases hstep
    exact Or.inl ⟨_, List.mem_singleton_self _, rfl⟩

/-- A call of the producer does not begin in another one. -/
theorem isProducer_of_busy (hpc : s.producer ≠ .idle)
    (hstep : step s a = some (s', es)) :
    a = .producerStep ∨ a.isProducer = false := by
  cases a with
  | tryPush value =>
      simp only [step] at hstep
      cases hstep
  | isFull =>
      simp only [step] at hstep
      cases hstep
  | producerStep => exact Or.inl rfl
  | tryPop => exact Or.inr rfl
  | isEmpty => exact Or.inr rfl
  | consumerStep => exact Or.inr rfl

theorem producer_measured :
    Thread.Measured (machine α c) (producerThread α c) 3 where
  enabled _ hbusy := by
    obtain ⟨k, hleft⟩ := Option.isSome_iff_exists.mp hbusy
    obtain ⟨s', es, hstep, -⟩ := producerStep_completes (producer_left hleft).1
    exact ⟨.producerStep, rfl, Option.isSome_iff_exists.mpr ⟨_, hstep⟩⟩
  bounded {s k} hleft := by
    obtain ⟨hpc, rfl⟩ := producer_left hleft
    exact ProducerPc.stepsLeft_bounds hpc
  advances {H es s s' a k} _ hleft hstep := by
    obtain ⟨hpc, rfl⟩ := producer_left hleft
    rcases isProducer_of_busy hpc hstep with rfl | hother
    · refine (producerStep_advances hstep).imp_right ?_
      rintro ⟨hpc', hless⟩
      exact ⟨_, producer_left_of_ne hpc', hless.le⟩
    · have hsame := step_other_pc hstep
      rw [if_neg (by simp [hother])] at hsame
      have hown : (producerThread α c).own a = false := by
        cases a <;> first | rfl | cases hother
      refine Or.inr ⟨s.producer.stepsLeft, ?_, ?_⟩
      · rw [← hsame]
        exact producer_left_of_ne (hsame ▸ hpc)
      · rw [hown]
        exact le_rfl

/-! ## The consumer -/

theorem consumer_left (h : (consumerThread α c).left s = some k) :
    s.consumer ≠ .idle ∧ s.consumer.stepsLeft = k := by
  cases hpc : s.consumer <;> simp_all [consumerThread]

theorem consumer_left_of_ne (h : s.consumer ≠ .idle) :
    (consumerThread α c).left s = some s.consumer.stepsLeft := by
  cases hpc : s.consumer <;> simp_all [consumerThread]

theorem ConsumerPc.stepsLeft_bounds {pc : ConsumerPc w α} (h : pc ≠ .idle) :
    0 < pc.stepsLeft ∧ pc.stepsLeft ≤ 3 := by
  cases pc <;> simp_all [ConsumerPc.stepsLeft]

/-- An own step of the consumer that gets on returns or is followed by another
one. -/
theorem consumerStep_advances (hstep : consumerStep s = some (s', es))
    (hless : s'.consumer.stepsLeft < s.consumer.stepsLeft) :
    (∃ e ∈ es, (consumerThread α c).returns e = true) ∨
      s'.consumer ≠ .idle := by
  unfold consumerStep at hstep
  split at hstep
  next => cases hstep
  next head hpc =>
    split at hstep <;> cases hstep
    next => exact Or.inl ⟨_, List.mem_singleton_self _, rfl⟩
    next => exact Or.inr (by simp)
  next head hpc =>
    split at hstep <;> cases hstep
    next => exact Or.inr (by simp)
    next => exact absurd hless (lt_irrefl _)
  next head value hpc =>
    cases hstep
    exact Or.inl ⟨_, List.mem_singleton_self _, rfl⟩
  next head hpc =>
    cases hstep
    exact Or.inl ⟨_, List.mem_singleton_self _, rfl⟩

/-- A call of the consumer does not begin in another one. -/
theorem isConsumer_of_busy (hpc : s.consumer ≠ .idle)
    (hstep : step s a = some (s', es)) :
    a = .consumerStep ∨ a.isProducer = true := by
  cases a with
  | tryPush value => exact Or.inr rfl
  | isFull => exact Or.inr rfl
  | producerStep => exact Or.inr rfl
  | tryPop =>
      simp only [step] at hstep
      cases hstep
  | isEmpty =>
      simp only [step] at hstep
      cases hstep
  | consumerStep => exact Or.inl rfl

theorem consumer_measured :
    Thread.Measured (machine α c) (consumerThread α c) 3 where
  enabled hreach hbusy := by
    obtain ⟨k, hleft⟩ := Option.isSome_iff_exists.mp hbusy
    obtain ⟨s', es, hstep, -⟩ := consumerStep_completes
      (counterInvariant_of_reaches hreach) (writtenInvariant_of_reaches hreach)
      (consumer_left hleft).1
    exact ⟨.consumerStep, rfl, Option.isSome_iff_exists.mpr ⟨_, hstep⟩⟩
  bounded {s k} hleft := by
    obtain ⟨hpc, rfl⟩ := consumer_left hleft
    exact ConsumerPc.stepsLeft_bounds hpc
  advances {H es s s' a k} hreach hleft hstep := by
    obtain ⟨hpc, rfl⟩ := consumer_left hleft
    rcases isConsumer_of_busy hpc hstep with rfl | hother
    · obtain ⟨s₁, es₁, hstep₁, hless⟩ := consumerStep_completes
        (counterInvariant_of_reaches hreach)
        (writtenInvariant_of_reaches hreach) hpc
      obtain ⟨rfl, rfl⟩ := Prod.mk.inj (Option.some.inj (hstep₁.symm.trans hstep))
      refine (consumerStep_advances hstep hless).imp_right fun hpc' => ?_
      exact ⟨_, consumer_left_of_ne hpc', hless⟩
    · have hsame := step_other_pc hstep
      rw [if_pos hother] at hsame
      have hown : (consumerThread α c).own a = false := by
        cases a <;> first | rfl | cases hother
      refine Or.inr ⟨s.consumer.stepsLeft, ?_, ?_⟩
      · rw [← hsame]
        exact consumer_left_of_ne (hsame ▸ hpc)
      · rw [hown]
        exact le_rfl

/-- Both sides of every ring are wait-free: from whatever state an interleaving
has led to, a call in progress can go on and returns with its third own step at
the latest. -/
theorem ring_waitFree :
    Thread.WaitFree (machine α c) (producerThread α c) 3 ∧
      Thread.WaitFree (machine α c) (consumerThread α c) 3 :=
  ⟨producer_measured.waitFree, consumer_measured.waitFree⟩

end TympanApo.Realtime.Ring
