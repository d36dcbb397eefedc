import TympanApo.Realtime.RingInvariant
import Mathlib.Order.Nat

/-!
# The ring linearises to a bounded queue

The return of each call is its linearisation point: a successful push takes
effect when `tail` is stored, a successful pop when `head` is stored, and the
two refusals when the other side's index is loaded.  The sequence of returns
is therefore itself a run of the bounded queue, as long as the indices have
not wrapped.
-/

namespace TympanApo.Realtime.Ring

open TympanApo.Support

variable {w : ℕ} {α : Type*} {c : Capacity w}

/-! ## Slots before the indices wrap -/

/-- Up to the counter `n` the reduced indices run through the slots in
cyclic order. -/
def Unwrapped (c : Capacity w) (n : ℕ) : Prop :=
  ∀ i ≤ n, (slot c (BitVec.ofNat w i)).val = i % c.val.toNat

theorem unwrapped_of_lt (c : Capacity w) {n : ℕ} (hn : n < 2 ^ w) :
    Unwrapped c n := by
  intro i hi
  simp only [slot, BitVec.toNat_umod, BitVec.toNat_ofNat]
  rw [Nat.mod_eq_of_lt (a := i) (by omega)]

/-- Counters less than a capacity apart lie in different slots. -/
theorem Unwrapped.slot_ne {n i j : ℕ} (h : Unwrapped c n) (hij : i < j)
    (hjn : j ≤ n) (hclose : j < i + c.val.toNat) :
    slot c (BitVec.ofNat w i) ≠ slot c (BitVec.ofNat w j) := by
  intro heq
  have hmod : j % c.val.toNat = i % c.val.toNat := by
    rw [← h i (by omega), ← h j hjn, heq]
  have hdvd : c.val.toNat ∣ j - i :=
    Nat.dvd_of_mod_eq_zero (Nat.sub_mod_eq_zero_of_mod_eq hmod)
  have hzero := Nat.eq_zero_of_dvd_of_lt hdvd (by omega)
  omega

/-! ## What the slots hold -/

/-- The slots from `head` to `tail` hold the unread values in order, and so
do the values in flight in either thread. -/
structure SlotInvariant (H : List (Event α)) (s : State α c) : Prop where
  slots : ∀ i, (popped H).length ≤ i → i < (pushed H).length →
    s.shared.buf (slot c (BitVec.ofNat w i)) = (pushed H)[i]?
  written : ∀ value tail, s.producer = .pushWritten value tail →
    s.shared.buf (slot c tail) = some value
  read : ∀ head value, s.consumer = .popRead head value →
    (pushed H)[(popped H).length]? = some value
  linear : Path (BoundedQueue.Step c.val.toNat) []
    (H.filterMap queueOp) (contents H)
  initialised : Event.uninitRead ∉ H

theorem slotInvariant_spsc : SlotInvariant [] (spsc α c) where
  slots := by simp
  written := by simp [spsc]
  read := by simp [spsc]
  linear := Path.nil []
  initialised := by simp

theorem contents_length (H : List (Event α)) :
    (contents H).length = (pushed H).length - (popped H).length := by
  simp [contents]

/-- The oldest unread value is the next element of the pushed sequence. -/
theorem contents_eq_cons {H : List (Event α)} {value : α}
    (hnext : (pushed H)[(popped H).length]? = some value) :
    contents H = value :: (pushed H).drop ((popped H).length + 1) := by
  obtain ⟨hlt, hget⟩ := List.getElem?_eq_some_iff.mp hnext
  rw [contents, List.drop_eq_getElem_cons hlt, hget]

/-- A step that returns nothing keeps the slot invariant if it keeps the
buffer and the values in flight. -/
theorem SlotInvariant.of_silent {H : List (Event α)} {s s' : State α c}
    (hinv : SlotInvariant H s)
    (hbuf : s'.shared.buf = s.shared.buf)
    (hwritten : ∀ value tail, s'.producer = .pushWritten value tail →
      s'.shared.buf (slot c tail) = some value)
    (hread : ∀ head value, s'.consumer = .popRead head value →
      (pushed H)[(popped H).length]? = some value) :
    SlotInvariant (H ++ []) s' := by
  rw [List.append_nil]
  refine ⟨?_, hwritten, hread, hinv.linear, hinv.initialised⟩
  intro i hhead htail
  rw [hbuf]
  exact hinv.slots i hhead htail

/-- A step that returns without changing the queue keeps the slot invariant
when its return is a legal queue operation. -/
theorem SlotInvariant.of_return {H : List (Event α)} {s s' : State α c}
    {e : Event α} (hinv : SlotInvariant H s)
    (hpushed : pushed [e] = []) (hpopped : popped [e] = [])
    (hbuf : s'.shared.buf = s.shared.buf)
    (hwritten : ∀ value tail, s'.producer = .pushWritten value tail →
      s'.shared.buf (slot c tail) = some value)
    (hread : ∀ head value, s'.consumer = .popRead head value →
      (pushed H)[(popped H).length]? = some value)
    (hlegal : ∀ op, queueOp e = some op →
      BoundedQueue.Step c.val.toNat (contents H) op (contents H))
    (hinit : e ≠ .uninitRead) :
    SlotInvariant (H ++ [e]) s' := by
  have hpushed' : pushed (H ++ [e]) = pushed H := by simp [hpushed]
  have hpopped' : popped (H ++ [e]) = popped H := by simp [hpopped]
  have hcontents : contents (H ++ [e]) = contents H := by
    rw [contents, hpushed', hpopped', contents]
  constructor
  · rw [hpushed', hpopped', hbuf]
    exact hinv.slots
  · exact hwritten
  · rw [hpushed', hpopped']
    exact hread
  · rw [hcontents, List.filterMap_append]
    cases hop : queueOp e with
    | none => simpa [hop] using hinv.linear
    | some op =>
        have hone : [e].filterMap queueOp = [op] := by simp [hop]
        rw [hone]
        exact hinv.linear.append (Path.single (hlegal op hop))
  · simp only [List.mem_append, List.mem_singleton, not_or]
    exact ⟨hinv.initialised, fun h => hinit h.symm⟩

/-- The slot an admitted push is about to write holds no unread value. -/
def FreshWrite (H : List (Event α)) (s : State α c) : Prop :=
  ∀ value tail, s.producer = .pushAdmitted value tail →
    ∀ i, (popped H).length ≤ i → i < (pushed H).length →
      slot c (BitVec.ofNat w i) ≠ slot c tail

/-- Before the indices wrap every write is fresh. -/
theorem Unwrapped.freshWrite {H : List (Event α)} {s : State α c}
    (h : Unwrapped c (pushed H).length) (hcount : CounterInvariant H s) :
    FreshWrite H s := by
  intro value tail hpc i hhead htail
  have hprod := hcount.producer
  rw [hpc] at hprod
  obtain ⟨rfl, hroom⟩ := hprod
  exact h.slot_ne htail le_rfl (by omega)

/-- A fresh write disturbs no unread slot. -/
theorem SlotInvariant.pushWrite {H : List (Event α)} {s : State α c}
    (hinv : SlotInvariant H s) (hfresh : FreshWrite H s)
    {value : α} {tail : BitVec w}
    (hpc : s.producer = .pushAdmitted value tail) :
    SlotInvariant H
      { s with
        shared := { s.shared with
          buf := Function.update s.shared.buf (slot c tail) (some value) }
        producer := .pushWritten value tail } := by
  refine ⟨?_, ?_, hinv.read, hinv.linear, hinv.initialised⟩
  · intro i hhead htail
    have hne := hfresh value tail hpc i hhead htail
    simpa [Function.update_of_ne hne] using hinv.slots i hhead htail
  · intro value' tail' hpc'
    simp only [ProducerPc.pushWritten.injEq] at hpc'
    obtain ⟨rfl, rfl⟩ := hpc'
    exact Function.update_self _ _ _

/-- Storing `tail` publishes the written value at the back of the queue. -/
theorem SlotInvariant.pushPublish {H : List (Event α)} {s : State α c}
    (hinv : SlotInvariant H s) (hcount : CounterInvariant H s)
    {value : α} {tail : BitVec w}
    (hpc : s.producer = .pushWritten value tail) :
    SlotInvariant (H ++ [.pushReturned value (.ok ())])
      { s with
        shared := { s.shared with tail := tail + 1 }
        producer := .idle } := by
  have hprod := hcount.producer
  rw [hpc] at hprod
  obtain ⟨rfl, hroom⟩ := hprod
  have hle := hcount.popped_le
  have hwritten := hinv.written _ _ hpc
  have hcontents :
      contents (H ++ [.pushReturned value (.ok ())]) =
        contents H ++ [value] := by
    simp [contents, List.drop_append_of_le_length hle]
  refine ⟨?_, by simp, ?_, ?_, ?_⟩
  · intro i hhead htail
    simp only [pushed_append, popped_append, pushed_pushOk, popped_push,
      List.append_nil, List.length_append, List.length_singleton] at hhead htail ⊢
    by_cases hi : i < (pushed H).length
    · rw [List.getElem?_append_left hi]
      exact hinv.slots i hhead hi
    · obtain rfl : i = (pushed H).length := by omega
      simpa using hwritten
  · intro head value' hpc'
    have hget := hinv.read head value' hpc'
    have hlt := (List.getElem?_eq_some_iff.mp hget).1
    simpa [List.getElem?_append_left hlt] using hget
  · rw [hcontents, List.filterMap_append]
    refine hinv.linear.append (Path.single (.enqueue ?_))
    rw [contents_length]
    omega
  · simpa using hinv.initialised

/-- Taking from the slot under `head` yields the oldest unread value. -/
theorem SlotInvariant.popTake {H : List (Event α)} {s : State α c}
    (hinv : SlotInvariant H s) (hcount : CounterInvariant H s)
    {head : BitVec w} (hpc : s.consumer = .popAdmitted head) :
    s.shared.buf (slot c head) = (pushed H)[(popped H).length]? := by
  have hcons := hcount.consumer
  rw [hpc] at hcons
  obtain ⟨rfl, hitem⟩ := hcons
  exact hinv.slots _ le_rfl hitem

/-- An admitted pop finds a value that was pushed and not yet popped. -/
theorem SlotInvariant.popAdmitted_some {H : List (Event α)} {s : State α c}
    (hinv : SlotInvariant H s) (hcount : CounterInvariant H s)
    {head : BitVec w} (hpc : s.consumer = .popAdmitted head) :
    ∃ value, s.shared.buf (slot c head) = some value ∧
      (contents H).head? = some value := by
  have hslot := hinv.popTake hcount hpc
  have hcons := hcount.consumer
  rw [hpc] at hcons
  have hget := List.getElem?_eq_getElem hcons.2
  refine ⟨_, hslot.trans hget, ?_⟩
  rw [contents_eq_cons hget]
  rfl

/-- Storing `head` removes the front of the queue. -/
theorem SlotInvariant.popPublish {H : List (Event α)} {s : State α c}
    (hinv : SlotInvariant H s) {head : BitVec w} {value : α}
    (hpc : s.consumer = .popRead head value) :
    SlotInvariant (H ++ [.popReturned (some value)])
      { s with
        shared := { s.shared with head := head + 1 }
        consumer := .idle } := by
  have hget := hinv.read _ _ hpc
  refine ⟨?_, hinv.written, by simp, ?_, ?_⟩
  · intro i hhead htail
    simp only [pushed_append, popped_append, pushed_pop, popped_popSome,
      List.append_nil, List.length_append, List.length_singleton] at hhead htail ⊢
    exact hinv.slots i (by omega) htail
  · have hcontents :
        contents (H ++ [.popReturned (some value)]) =
          (pushed H).drop ((popped H).length + 1) := by
      simp [contents]
    have hlinear := hinv.linear
    rw [contents_eq_cons hget] at hlinear
    rw [hcontents, List.filterMap_append]
    exact hlinear.append (Path.single .dequeue)
  · simpa using hinv.initialised

theorem SlotInvariant.transition {H es : List (Event α)} {s s' : State α c}
    (hinv : SlotInvariant H s) (hcount : CounterInvariant H s)
    (hfresh : FreshWrite H s) (h : Transition s es s') :
    SlotInvariant (H ++ es) s' := by
  cases h with
  | pushLoadTail value hpc =>
      exact hinv.of_silent rfl (by simp) hinv.read
  | pushFull value tail hpc hfull =>
      refine hinv.of_return rfl rfl rfl (by simp) hinv.read ?_ (by simp)
      rintro op ⟨⟩
      have hprod := hcount.producer
      rw [hpc] at hprod
      obtain rfl := hprod
      rw [hcount.head_eq,
        sub_eq_capacity_iff c hcount.popped_le hcount.pushed_le] at hfull
      exact .full (by rw [contents_length]; omega)
  | pushAdmit value tail hpc hroom =>
      exact hinv.of_silent rfl (by simp) hinv.read
  | pushWrite value tail hpc =>
      rw [List.append_nil]
      exact hinv.pushWrite hfresh hpc
  | pushPublish value tail hpc => exact hinv.pushPublish hcount hpc
  | isFullLoadTail hpc => exact hinv.of_silent rfl (by simp) hinv.read
  | isFullReturn tail hpc =>
      exact hinv.of_return rfl rfl rfl (by simp) hinv.read
        (by simp [queueOp]) (by simp)
  | popLoadHead hpc => exact hinv.of_silent rfl hinv.written (by simp)
  | popEmpty head hpc hempty =>
      refine hinv.of_return rfl rfl rfl hinv.written (by simp) ?_ (by simp)
      rintro op ⟨⟩
      have hcons := hcount.consumer
      rw [hpc] at hcons
      obtain rfl := hcons
      rw [hcount.tail_eq,
        head_eq_tail_iff c hcount.popped_le hcount.pushed_le] at hempty
      have hnil : contents H = [] := by
        simp [contents, hempty]
      rw [hnil]
      exact .empty
  | popAdmit head hpc hitem => exact hinv.of_silent rfl hinv.written (by simp)
  | popTake head value hpc hslot =>
      refine hinv.of_silent rfl hinv.written ?_
      intro head' value' hpc'
      simp only [ConsumerPc.popRead.injEq] at hpc'
      obtain ⟨rfl, rfl⟩ := hpc'
      rw [← hinv.popTake hcount hpc, hslot]
  | popUninit head hpc hslot =>
      obtain ⟨value, hsome, -⟩ := hinv.popAdmitted_some hcount hpc
      rw [hslot] at hsome
      cases hsome
  | popPublish head value hpc => exact hinv.popPublish hpc
  | isEmptyLoadHead hpc => exact hinv.of_silent rfl hinv.written (by simp)
  | isEmptyReturn head hpc =>
      exact hinv.of_return rfl rfl rfl hinv.written (by simp)
        (by simp [queueOp]) (by simp)

/-- Before the indices wrap, both invariants hold after every run. -/
theorem slotInvariant_of_reaches {H : List (Event α)} {s : State α c}
    (h : (machine α c).Reaches H s) (hbound : (pushed H).length < 2 ^ w) :
    SlotInvariant H s := by
  have hslots := invariant_of_counters
    (I := fun H s => (pushed H).length < 2 ^ w → SlotInvariant H s)
    (fun _ => slotInvariant_spsc) ?_ h
  · exact hslots hbound
  · intro H es s s' a hcount hslot _ htrans hbound'
    rw [pushed_append, List.length_append] at hbound'
    have hprev : (pushed H).length < 2 ^ w := by omega
    exact (hslot hprev).transition hcount
      ((unwrapped_of_lt c hprev).freshWrite hcount) htrans

/-! ## Refusals -/

/-- A refused push hands back its own argument and met a queue of exactly
`capacity` items; a refused pop met an empty queue.  `H` is the history when
the other side's index was loaded. -/
def RefusalSound (capacity : ℕ) (H : List (Event α)) : Event α → Prop
  | .pushReturned value (.error back) =>
      back = value ∧ (contents H).length = capacity
  | .popReturned none => contents H = []
  | _ => True

theorem CounterInvariant.refusals {H es : List (Event α)} {s s' : State α c}
    (hinv : CounterInvariant H s) (h : Transition s es s')
    (hH : Justified (RefusalSound c.val.toNat) H) :
    Justified (RefusalSound c.val.toNat) (H ++ es) := by
  have hprod := hinv.producer
  have hcons := hinv.consumer
  cases h with
  | pushLoadTail | pushAdmit | pushWrite | isFullLoadTail | popLoadHead
  | popAdmit | popTake | isEmptyLoadHead =>
      rwa [List.append_nil]
  | pushPublish | isFullReturn | popUninit | popPublish | isEmptyReturn =>
      exact hH.concat trivial
  | pushFull value tail hpc hfull =>
      rw [hpc] at hprod
      obtain rfl := hprod
      rw [hinv.head_eq,
        sub_eq_capacity_iff c hinv.popped_le hinv.pushed_le] at hfull
      exact hH.concat ⟨rfl, by rw [contents_length]; omega⟩
  | popEmpty head hpc hempty =>
      rw [hpc] at hcons
      obtain rfl := hcons
      rw [hinv.tail_eq,
        head_eq_tail_iff c hinv.popped_le hinv.pushed_le] at hempty
      exact hH.concat (by simp [RefusalSound, contents, hempty])

/-- Every refusal of every run is sound, wrapped or not. -/
theorem refusals_of_reaches {H : List (Event α)} {s : State α c}
    (h : (machine α c).Reaches H s) :
    Justified (RefusalSound c.val.toNat) H :=
  invariant_of_counters
    (I := fun H _ => Justified (RefusalSound c.val.toNat) H) (justified_nil _)
    (fun hcount hrefusals _ htrans => hcount.refusals htrans hrefusals) h

/-! ## Linearisability -/

theorem enqueued_queueOps (H : List (Event α)) :
    (H.filterMap queueOp).filterMap BoundedQueue.Op.enqueuedValue =
      pushed H := by
  rw [List.filterMap_filterMap, pushed]
  congr 1
  funext e
  cases e with
  | pushReturned value result => cases result <;> rfl
  | popReturned result => cases result <;> rfl
  | isFullReturned answer => rfl
  | isEmptyReturned answer => rfl
  | uninitRead => rfl

theorem dequeued_queueOps (H : List (Event α)) :
    (H.filterMap queueOp).filterMap BoundedQueue.Op.dequeuedValue =
      popped H := by
  rw [List.filterMap_filterMap, popped]
  congr 1
  funext e
  cases e with
  | pushReturned value result => cases result <;> rfl
  | popReturned result => cases result <;> rfl
  | isFullReturned answer => rfl
  | isEmptyReturned answer => rfl
  | uninitRead => rfl

/-- What was pushed is what was popped and what is still there. -/
theorem SlotInvariant.pushed_eq {H : List (Event α)} {s : State α c}
    (h : SlotInvariant H s) : pushed H = popped H ++ contents H := by
  have hsplit := BoundedQueue.enqueued_eq_dequeued_append h.linear
  rwa [enqueued_queueOps, dequeued_queueOps] at hsplit

theorem SlotInvariant.popped_prefix {H : List (Event α)} {s : State α c}
    (h : SlotInvariant H s) : popped H <+: pushed H := by
  have hprefix := BoundedQueue.dequeued_prefix_enqueued h.linear
  rwa [enqueued_queueOps, dequeued_queueOps] at hprefix

/-- What the ring owes its two threads after a run with history `H`. -/
structure Linearises (H : List (Event α)) (s : State α c) : Prop where
  /-- The returns are a run of a bounded queue holding the unread items. -/
  linear : Path (BoundedQueue.Step c.val.toNat) []
    (H.filterMap queueOp) (contents H)
  popped_prefix : popped H <+: pushed H
  head_le_tail : s.shared.head.toNat ≤ s.shared.tail.toNat
  occupancy : s.shared.tail.toNat - s.shared.head.toNat ≤ c.val.toNat
  refusals : Justified (RefusalSound c.val.toNat) H
  /-- A pending slot read finds the oldest unread value. -/
  reads_unread : ∀ head, s.consumer = .popAdmitted head →
    ∃ value, s.shared.buf (slot c head) = some value ∧
      (contents H).head? = some value
  initialised : Event.uninitRead ∉ H
  /-- A slot write and a slot read are never pending on one slot. -/
  disjoint : ∀ value tail head, s.producer = .pushAdmitted value tail →
    s.consumer = .popAdmitted head → slot c tail ≠ slot c head

/-- For every capacity, every interleaving of the two threads and every run
with fewer than `2 ^ w` successful pushes, the ring linearises to a bounded
first-in first-out queue. -/
theorem ring_linearises (c : Capacity w) {H : List (Event α)} {s : State α c}
    (h : (machine α c).Reaches H s) (hbound : (pushed H).length < 2 ^ w) :
    Linearises H s := by
  have hcount := counterInvariant_of_reaches h
  have hslot := slotInvariant_of_reaches h hbound
  have hle := hcount.popped_le
  have hroom := hcount.pushed_le
  have htail : s.shared.tail.toNat = (pushed H).length := by
    rw [hcount.tail_eq, BitVec.toNat_ofNat, Nat.mod_eq_of_lt hbound]
  have hhead : s.shared.head.toNat = (popped H).length := by
    rw [hcount.head_eq, BitVec.toNat_ofNat, Nat.mod_eq_of_lt (by omega)]
  refine
    { linear := hslot.linear
      popped_prefix := hslot.popped_prefix
      head_le_tail := by omega
      occupancy := by omega
      refusals := refusals_of_reaches h
      reads_unread := fun head hpc => hslot.popAdmitted_some hcount hpc
      initialised := hslot.initialised
      disjoint := ?_ }
  intro value tail head hwrite hread
  have hprod := hcount.producer
  have hcons := hcount.consumer
  rw [hwrite] at hprod
  rw [hread] at hcons
  obtain ⟨rfl, hfree⟩ := hprod
  obtain ⟨rfl, hitem⟩ := hcons
  exact ((unwrapped_of_lt c hbound).slot_ne hitem le_rfl (by omega)).symm

/-- Two pushes fill a ring of two slots, a third is refused, and a pop is
about to read while the next push is about to write. -/
theorem ring_linearises_two_slots :
    ∃ s : State ℕ (⟨2#8, by decide⟩ : Capacity 8),
      Linearises
        [.pushReturned 10 (.ok ()), .pushReturned 20 (.ok ()),
          .pushReturned 30 (.error 30), .popReturned (some 10)] s ∧
      s.producer = .pushAdmitted 40 2#8 ∧ s.consumer = .popAdmitted 1#8 :=
  ⟨_, ring_linearises _ (Machine.reaches_of_exec
      [.tryPush 10, .producerStep, .producerStep, .producerStep,
        .tryPush 20, .producerStep, .producerStep, .producerStep,
        .tryPush 30, .producerStep,
        .tryPop, .consumerStep, .consumerStep, .consumerStep,
        .tryPop, .tryPush 40, .producerStep, .consumerStep] rfl) (by decide),
    rfl, rfl⟩

end TympanApo.Realtime.Ring
