import Mathlib.Algebra.Group.Nat.Defs
import TympanApo.Realtime.Ring

/-!
# Invariants of the ring

The shared indices count the pushes and the pops of the history modulo
`2 ^ w`, and every in-flight copy of a thread's own index is exact, since
only that thread writes it.  The bound `pushed ≤ popped + capacity` survives
stale copies of the other side's index because each side can only move away
from the condition it checked.  This part holds across index wrap-around.

What the slots hold is only claimed while the indices have not passed a point
where `index % capacity` breaks its cycle.
-/

namespace TympanApo.Realtime.Ring

open TympanApo.Support

variable {w : ℕ} {α : Type*} {c : Capacity w}

/-! ## Histories -/

@[simp] theorem pushed_nil : pushed ([] : List (Event α)) = [] := rfl

@[simp] theorem popped_nil : popped ([] : List (Event α)) = [] := rfl

@[simp] theorem pushed_append (H es : List (Event α)) :
    pushed (H ++ es) = pushed H ++ pushed es :=
  List.filterMap_append

@[simp] theorem popped_append (H es : List (Event α)) :
    popped (H ++ es) = popped H ++ popped es :=
  List.filterMap_append

@[simp] theorem pushed_pushOk (value : α) :
    pushed [.pushReturned value (.ok ())] = [value] := rfl

@[simp] theorem pushed_pushFull (value back : α) :
    pushed [.pushReturned value (.error back)] = [] := rfl

@[simp] theorem pushed_isFull (answer : Bool) :
    pushed ([.isFullReturned answer] : List (Event α)) = [] := rfl

@[simp] theorem pushed_pop (result : Option α) :
    pushed [.popReturned result] = [] := rfl

@[simp] theorem pushed_isEmpty (answer : Bool) :
    pushed ([.isEmptyReturned answer] : List (Event α)) = [] := rfl

@[simp] theorem pushed_uninitRead :
    pushed ([.uninitRead] : List (Event α)) = [] := rfl

@[simp] theorem popped_push (value : α) (result : Except α Unit) :
    popped [.pushReturned value result] = [] := rfl

@[simp] theorem popped_isFull (answer : Bool) :
    popped ([.isFullReturned answer] : List (Event α)) = [] := rfl

@[simp] theorem popped_popSome (value : α) :
    popped [.popReturned (some value)] = [value] := rfl

@[simp] theorem popped_popNone :
    popped ([.popReturned none] : List (Event α)) = [] := rfl

@[simp] theorem popped_isEmpty (answer : Bool) :
    popped ([.isEmptyReturned answer] : List (Event α)) = [] := rfl

@[simp] theorem popped_uninitRead :
    popped ([.uninitRead] : List (Event α)) = [] := rfl

/-! ## Index arithmetic -/

theorem capacity_lt_two_pow (c : Capacity w) : c.val.toNat < 2 ^ w :=
  c.val.isLt

/-- The wrapping difference of two counters at most a capacity apart is their
exact difference. -/
theorem ofNat_sub_ofNat {t h : ℕ} (hle : h ≤ t) :
    BitVec.ofNat w t - BitVec.ofNat w h = BitVec.ofNat w (t - h) := by
  obtain ⟨d, rfl⟩ := Nat.exists_eq_add_of_le hle
  rw [BitVec.ofNat_add, Nat.add_sub_cancel_left, BitVec.add_comm,
    BitVec.add_sub_cancel]

/-- The full check is exact for counters at most a capacity apart. -/
theorem sub_eq_capacity_iff (c : Capacity w) {t h : ℕ} (hle : h ≤ t)
    (hroom : t ≤ h + c.val.toNat) :
    BitVec.ofNat w t - BitVec.ofNat w h = c.val ↔
      t = h + c.val.toNat := by
  have hcap := capacity_lt_two_pow c
  rw [ofNat_sub_ofNat hle, ← BitVec.toNat_inj, BitVec.toNat_ofNat,
    Nat.mod_eq_of_lt (by omega)]
  omega

/-- The emptiness check is exact for counters at most a capacity apart. -/
theorem head_eq_tail_iff (c : Capacity w) {t h : ℕ} (hle : h ≤ t)
    (hroom : t ≤ h + c.val.toNat) :
    BitVec.ofNat w h = BitVec.ofNat w t ↔ h = t := by
  have hcap := capacity_lt_two_pow c
  constructor
  · intro heq
    have hsub := ofNat_sub_ofNat (w := w) hle
    rw [heq, BitVec.sub_self] at hsub
    have hlt : t - h < 2 ^ w := by omega
    have hzero : 0 = t - h := by
      simpa [Nat.mod_eq_of_lt hlt] using congrArg BitVec.toNat hsub
    omega
  · rintro rfl
    rfl

theorem ofNat_succ (n : ℕ) :
    BitVec.ofNat w n + 1 = BitVec.ofNat w (n + 1) := by
  rw [BitVec.ofNat_add]
  rfl

/-! ## Counters -/

/-- The producer's copy of its own index is current, and past the capacity
check there is room for one more item. -/
def ProducerPc.Current (t h capacity : ℕ) : ProducerPc w α → Prop
  | .idle => True
  | .pushLoadedTail _ tail => tail = BitVec.ofNat w t
  | .pushAdmitted _ tail => tail = BitVec.ofNat w t ∧ t < h + capacity
  | .pushWritten _ tail => tail = BitVec.ofNat w t ∧ t < h + capacity
  | .isFullLoadedTail tail => tail = BitVec.ofNat w t

/-- The consumer's copy of its own index is current, and past the emptiness
check there is an item to take. -/
def ConsumerPc.Current (t h : ℕ) : ConsumerPc w α → Prop
  | .idle => True
  | .popLoadedHead head => head = BitVec.ofNat w h
  | .popAdmitted head => head = BitVec.ofNat w h ∧ h < t
  | .popRead head _ => head = BitVec.ofNat w h ∧ h < t
  | .isEmptyLoadedHead head => head = BitVec.ofNat w h

theorem ProducerPc.Current.head_advance {t h h' capacity : ℕ}
    {pc : ProducerPc w α} (hpc : pc.Current t h capacity) (hle : h ≤ h') :
    pc.Current t h' capacity := by
  cases pc with
  | idle => trivial
  | pushLoadedTail => exact hpc
  | pushAdmitted => exact ⟨hpc.1, by have := hpc.2; omega⟩
  | pushWritten => exact ⟨hpc.1, by have := hpc.2; omega⟩
  | isFullLoadedTail => exact hpc

theorem ConsumerPc.Current.tail_advance {t t' h : ℕ}
    {pc : ConsumerPc w α} (hpc : pc.Current t h) (hle : t ≤ t') :
    pc.Current t' h := by
  cases pc with
  | idle => trivial
  | popLoadedHead => exact hpc
  | popAdmitted => exact ⟨hpc.1, by have := hpc.2; omega⟩
  | popRead => exact ⟨hpc.1, by have := hpc.2; omega⟩
  | isEmptyLoadedHead => exact hpc

/-- The indices count pushes and pops modulo `2 ^ w` and never drift further
apart than the capacity. -/
structure CounterInvariant (H : List (Event α)) (s : State α c) : Prop where
  tail_eq : s.shared.tail = BitVec.ofNat w (pushed H).length
  head_eq : s.shared.head = BitVec.ofNat w (popped H).length
  popped_le : (popped H).length ≤ (pushed H).length
  pushed_le : (pushed H).length ≤ (popped H).length + c.val.toNat
  producer : s.producer.Current (pushed H).length (popped H).length c.val.toNat
  consumer : s.consumer.Current (pushed H).length (popped H).length

theorem counterInvariant_spsc : CounterInvariant [] (spsc α c) where
  tail_eq := rfl
  head_eq := rfl
  popped_le := by simp
  pushed_le := by simp
  producer := trivial
  consumer := trivial

/-- A step that completes neither a push nor a pop leaves both counters alone. -/
theorem CounterInvariant.of_quiet {H es : List (Event α)} {s s' : State α c}
    (hinv : CounterInvariant H s)
    (hpushed : pushed es = []) (hpopped : popped es = [])
    (htail : s'.shared.tail = s.shared.tail)
    (hhead : s'.shared.head = s.shared.head)
    (hprod : s'.producer.Current
      (pushed H).length (popped H).length c.val.toNat)
    (hcons : s'.consumer.Current (pushed H).length (popped H).length) :
    CounterInvariant (H ++ es) s' := by
  have hpushed' : pushed (H ++ es) = pushed H := by simp [hpushed]
  have hpopped' : popped (H ++ es) = popped H := by simp [hpopped]
  constructor
  · rw [htail, hpushed', hinv.tail_eq]
  · rw [hhead, hpopped', hinv.head_eq]
  · rw [hpushed', hpopped']
    exact hinv.popped_le
  · rw [hpushed', hpopped']
    exact hinv.pushed_le
  · rw [hpushed', hpopped']
    exact hprod
  · rw [hpushed', hpopped']
    exact hcons

/-- Past the capacity check the producer knows of a free slot. -/
theorem CounterInvariant.room_of_not_full {H : List (Event α)}
    {s : State α c} (hinv : CounterInvariant H s)
    (hroom : BitVec.ofNat w (pushed H).length - s.shared.head ≠ c.val) :
    (pushed H).length < (popped H).length + c.val.toNat := by
  have hnot : (pushed H).length ≠ (popped H).length + c.val.toNat := by
    intro heq
    apply hroom
    rw [hinv.head_eq]
    exact (sub_eq_capacity_iff c hinv.popped_le hinv.pushed_le).mpr heq
  have hle := hinv.pushed_le
  omega

/-- Past the emptiness check the consumer knows of an unread item. -/
theorem CounterInvariant.item_of_not_empty {H : List (Event α)}
    {s : State α c} (hinv : CounterInvariant H s)
    (hitem : BitVec.ofNat w (popped H).length ≠ s.shared.tail) :
    (popped H).length < (pushed H).length := by
  have hnot : (popped H).length ≠ (pushed H).length := by
    intro heq
    apply hitem
    rw [hinv.tail_eq]
    exact (head_eq_tail_iff c hinv.popped_le hinv.pushed_le).mpr heq
  have hle := hinv.popped_le
  omega

/-- The wrapping difference of the indices counts the unread items. -/
theorem CounterInvariant.occupancy {H : List (Event α)} {s : State α c}
    (h : CounterInvariant H s) :
    (s.shared.tail - s.shared.head).toNat =
      (pushed H).length - (popped H).length := by
  have hcap := capacity_lt_two_pow c
  have hroom := h.pushed_le
  rw [h.tail_eq, h.head_eq, ofNat_sub_ofNat h.popped_le, BitVec.toNat_ofNat,
    Nat.mod_eq_of_lt (by omega)]

theorem CounterInvariant.pushPublish {H : List (Event α)} {s : State α c}
    (hinv : CounterInvariant H s) {value : α} {tail : BitVec w}
    (hpc : s.producer = .pushWritten value tail) :
    CounterInvariant (H ++ [.pushReturned value (.ok ())])
      { s with
        shared := { s.shared with tail := tail + 1 }
        producer := .idle } := by
  have hprod := hinv.producer
  rw [hpc] at hprod
  obtain ⟨rfl, hlt⟩ := hprod
  have hle := hinv.popped_le
  constructor
  · simpa using ofNat_succ (pushed H).length
  · simpa using hinv.head_eq
  · simp
    omega
  · simp
    omega
  · trivial
  · simpa using hinv.consumer.tail_advance (Nat.le_succ _)

theorem CounterInvariant.popPublish {H : List (Event α)} {s : State α c}
    (hinv : CounterInvariant H s) {head : BitVec w} {value : α}
    (hpc : s.consumer = .popRead head value) :
    CounterInvariant (H ++ [.popReturned (some value)])
      { s with
        shared := { s.shared with head := head + 1 }
        consumer := .idle } := by
  have hcons := hinv.consumer
  rw [hpc] at hcons
  obtain ⟨rfl, hlt⟩ := hcons
  have hle := hinv.pushed_le
  constructor
  · simpa using hinv.tail_eq
  · simpa using ofNat_succ (popped H).length
  · simp
    omega
  · simp
    omega
  · simpa using hinv.producer.head_advance (Nat.le_succ _)
  · trivial

theorem CounterInvariant.transition {H es : List (Event α)} {s s' : State α c}
    (hinv : CounterInvariant H s) (h : Transition s es s') :
    CounterInvariant (H ++ es) s' := by
  have hprod := hinv.producer
  have hcons := hinv.consumer
  cases h with
  | pushLoadTail value hpc =>
      exact hinv.of_quiet rfl rfl rfl rfl hinv.tail_eq hcons
  | pushFull value tail hpc hfull =>
      exact hinv.of_quiet rfl rfl rfl rfl trivial hcons
  | pushAdmit value tail hpc hroom =>
      rw [hpc] at hprod
      obtain rfl := hprod
      exact hinv.of_quiet rfl rfl rfl rfl
        ⟨rfl, hinv.room_of_not_full hroom⟩ hcons
  | pushWrite value tail hpc =>
      rw [hpc] at hprod
      exact hinv.of_quiet rfl rfl rfl rfl ⟨hprod.1, hprod.2⟩ hcons
  | pushPublish value tail hpc => exact hinv.pushPublish hpc
  | isFullLoadTail hpc =>
      exact hinv.of_quiet rfl rfl rfl rfl hinv.tail_eq hcons
  | isFullReturn tail hpc =>
      exact hinv.of_quiet rfl rfl rfl rfl trivial hcons
  | popLoadHead hpc =>
      exact hinv.of_quiet rfl rfl rfl rfl hprod hinv.head_eq
  | popEmpty head hpc hempty =>
      exact hinv.of_quiet rfl rfl rfl rfl hprod trivial
  | popAdmit head hpc hitem =>
      rw [hpc] at hcons
      obtain rfl := hcons
      exact hinv.of_quiet rfl rfl rfl rfl hprod
        ⟨rfl, hinv.item_of_not_empty hitem⟩
  | popTake head value hpc hslot =>
      rw [hpc] at hcons
      exact hinv.of_quiet rfl rfl rfl rfl hprod ⟨hcons.1, hcons.2⟩
  | popUninit head hpc hslot =>
      exact hinv.of_quiet rfl rfl rfl rfl hprod hcons
  | popPublish head value hpc => exact hinv.popPublish hpc
  | isEmptyLoadHead hpc =>
      exact hinv.of_quiet rfl rfl rfl rfl hprod hinv.head_eq
  | isEmptyReturn head hpc =>
      exact hinv.of_quiet rfl rfl rfl rfl hprod trivial

/-- The counter invariant holds after every run, wrapped or not. -/
theorem counterInvariant_of_reaches {H : List (Event α)} {s : State α c}
    (h : (machine α c).Reaches H s) : CounterInvariant H s :=
  h.invariant counterInvariant_spsc
    fun hinv _ hstep => hinv.transition (step_transition hstep)

/-- The rule for the other invariants of the ring: a step may rely on the
counters. -/
theorem invariant_of_counters {G : State α c → Action α → Prop}
    {I : List (Event α) → State α c → Prop} (hstart : I [] (spsc α c))
    (hnext : ∀ {H es : List (Event α)} {s s' : State α c} {a : Action α},
      CounterInvariant H s → I H s → G s a → Transition s es s' →
        I (H ++ es) s')
    {H : List (Event α)} {s : State α c} (h : (machine α c).Run G H s) :
    I H s :=
  h.invariant_of_run hstart fun hrun hinv hguard hstep =>
    hnext (counterInvariant_of_reaches hrun.reaches) hinv hguard
      (step_transition hstep)

end TympanApo.Realtime.Ring
