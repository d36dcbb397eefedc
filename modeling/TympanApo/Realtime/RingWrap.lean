import TympanApo.Realtime.RingLinearization
import TympanApo.Support.CyclicIndex

/-!
# Sequential runs across the index wrap

Here each call runs to completion before the next one starts, and the indices
may wrap.  A push keeps every unread slot if and only if the capacity divides
the range of the indices, or `head` and `tail` have not wrapped apart, or
fewer items are unread than the range leaves over.  A run all of whose pushes
meet that condition is first-in first-out; one that does not loses an item.
-/

namespace TympanApo.Realtime.Ring

open TympanApo.Support

variable {w : ℕ} {α : Type*} {c : Capacity w}

/-! ## Whole calls -/

/-- `Producer::try_push`, with the ring it leaves behind. -/
def tryPush (sh : Shared α c) (value : α) : Shared α c × Except α Unit :=
  if sh.tail - sh.head = c.val then
    (sh, .error value)
  else
    ({ sh with
        buf := Function.update sh.buf (slot c sh.tail) (some value)
        tail := sh.tail + 1 }, .ok ())

/-- `Consumer::try_pop`; it is undefined where the slot was never written. -/
def tryPop (sh : Shared α c) : Option (Shared α c × Option α) :=
  if sh.head = sh.tail then
    some (sh, none)
  else
    (sh.buf (slot c sh.head)).map fun value =>
      ({ sh with head := sh.head + 1 }, some value)

/-- A call on an idle ring. -/
inductive Call (α : Type*)
  | tryPush (value : α)
  | tryPop

/-- One call, with the event it returns. -/
def call (sh : Shared α c) : Call α → Option (Shared α c × List (Event α))
  | .tryPush value =>
      some ((tryPush sh value).1, [.pushReturned value (tryPush sh value).2])
  | .tryPop =>
      match tryPop sh with
      | some (sh', result) => some (sh', [.popReturned result])
      | none => some (sh, [.uninitRead])

/-- The ring used from one thread. -/
def sequential (α : Type*) (c : Capacity w) :
    Machine (Shared α c) (Call α) (Event α) where
  init := (spsc α c).shared
  step := call

/-- The ring between two calls. -/
def Shared.idle (sh : Shared α c) : State α c where
  shared := sh
  producer := .idle
  consumer := .idle

/-- What one call can do. -/
inductive CallOutcome (sh : Shared α c) :
    Call α → List (Event α) → Shared α c → Prop
  | pushFull (value : α) (hfull : sh.tail - sh.head = c.val) :
      CallOutcome sh (.tryPush value) [.pushReturned value (.error value)] sh
  | pushOk (value : α) (hroom : sh.tail - sh.head ≠ c.val) :
      CallOutcome sh (.tryPush value) [.pushReturned value (.ok ())]
        { sh with
          buf := Function.update sh.buf (slot c sh.tail) (some value)
          tail := sh.tail + 1 }
  | popEmpty (hempty : sh.head = sh.tail) :
      CallOutcome sh .tryPop [.popReturned none] sh
  | popOk (value : α) (hitem : sh.head ≠ sh.tail)
      (hslot : sh.buf (slot c sh.head) = some value) :
      CallOutcome sh .tryPop [.popReturned (some value)]
        { sh with head := sh.head + 1 }
  | popUninit (hitem : sh.head ≠ sh.tail)
      (hslot : sh.buf (slot c sh.head) = none) :
      CallOutcome sh .tryPop [.uninitRead] sh

theorem call_outcome {sh sh' : Shared α c} {a : Call α} {es : List (Event α)}
    (h : call sh a = some (sh', es)) : CallOutcome sh a es sh' := by
  cases a with
  | tryPush value =>
      simp only [call, tryPush] at h
      split at h <;> cases h
      next hfull => exact .pushFull value hfull
      next hroom => exact .pushOk value hroom
  | tryPop =>
      by_cases hempty : sh.head = sh.tail
      · simp only [call, tryPop, if_pos hempty] at h
        cases h
        exact .popEmpty hempty
      · cases hslot : sh.buf (slot c sh.head) with
        | none =>
            simp only [call, tryPop, if_neg hempty, hslot, Option.map_none] at h
            cases h
            exact .popUninit hempty hslot
        | some value =>
            simp only [call, tryPop, if_neg hempty, hslot, Option.map_some] at h
            cases h
            exact .popOk value hempty hslot

/-! ## Writes that keep the unread slots -/

/-- The slot behind `tail` is not the slot of an unread item. -/
def Shared.NextSlotFree (sh : Shared α c) : Prop :=
  ∀ i < (sh.tail - sh.head).toNat,
    slot c (sh.head + BitVec.ofNat w i) ≠ slot c sh.tail

/-- A push is refused or writes no unread slot. -/
def KeepsUnread (sh : Shared α c) : Call α → Prop
  | .tryPush _ => sh.tail - sh.head = c.val ∨ sh.NextSlotFree
  | .tryPop => True

/-- No admitted push is about to write an unread slot. -/
def NoOverwrite (s : State α c) (_ : Action α) : Prop :=
  ∀ value tail, s.producer = .pushAdmitted value tail → s.shared.NextSlotFree

theorem slot_eq_iff (c : Capacity w) (i j : ℕ) :
    slot c (BitVec.ofNat w i) = slot c (BitVec.ofNat w j) ↔
      cyclicSlot (2 ^ w) c.val.toNat i = cyclicSlot (2 ^ w) c.val.toNat j := by
  simp [slot, cyclicSlot]

theorem CounterInvariant.nextSlotFree_iff {H : List (Event α)}
    {s : State α c} (h : CounterInvariant H s) :
    s.shared.NextSlotFree ↔ ∀ j, (popped H).length ≤ j →
      j < (pushed H).length →
        cyclicSlot (2 ^ w) c.val.toNat j ≠
          cyclicSlot (2 ^ w) c.val.toNat (pushed H).length := by
  unfold Shared.NextSlotFree
  rw [h.occupancy, h.head_eq, h.tail_eq]
  constructor
  · intro hfree j hhead htail hshare
    apply hfree (j - (popped H).length) (by omega)
    rw [← BitVec.ofNat_add, Nat.add_sub_cancel' hhead]
    exact (slot_eq_iff c _ _).mpr hshare
  · intro hfree i hi hshare
    rw [← BitVec.ofNat_add] at hshare
    exact hfree _ (by omega) (by omega) ((slot_eq_iff c _ _).mp hshare)

theorem CounterInvariant.freshWrite {H : List (Event α)} {s : State α c}
    {a : Action α} (h : CounterInvariant H s) (hguard : NoOverwrite s a) :
    FreshWrite H s := by
  intro value tail hpc i hhead htail hshare
  have hprod := h.producer
  rw [hpc] at hprod
  obtain ⟨rfl, -⟩ := hprod
  have hfree := h.nextSlotFree_iff.mp (hguard value _ hpc)
  exact hfree i hhead htail ((slot_eq_iff c _ _).mp hshare)

/-- Wrapped or not, the slots hold the unread values in every interleaving
that overwrites none of them. -/
theorem slotInvariant_of_noOverwrite {H : List (Event α)} {s : State α c}
    (h : (machine α c).Run NoOverwrite H s) : SlotInvariant H s :=
  invariant_of_counters (I := SlotInvariant) slotInvariant_spsc
    (fun hcount hslot hguard htrans =>
      hslot.transition hcount (hcount.freshWrite hguard) htrans) h

/-! ## Calls are runs of atomic steps -/

/-- Every transition is the step of some action. -/
theorem Transition.exists_step {s s' : State α c} {es : List (Event α)}
    (h : Transition s es s') : ∃ a, step s a = some (s', es) := by
  cases h with
  | pushLoadTail value hpc => exact ⟨.tryPush value, by simp [step, hpc]⟩
  | isFullLoadTail hpc => exact ⟨.isFull, by simp [step, hpc]⟩
  | pushFull value tail hpc hfull =>
      exact ⟨.producerStep, by simp [step, producerStep, hpc, hfull]⟩
  | pushAdmit value tail hpc hroom =>
      exact ⟨.producerStep, by simp [step, producerStep, hpc, hroom]⟩
  | pushWrite value tail hpc =>
      exact ⟨.producerStep, by simp [step, producerStep, hpc]⟩
  | pushPublish value tail hpc =>
      exact ⟨.producerStep, by simp [step, producerStep, hpc]⟩
  | isFullReturn tail hpc =>
      exact ⟨.producerStep, by simp [step, producerStep, hpc]⟩
  | popLoadHead hpc => exact ⟨.tryPop, by simp [step, hpc]⟩
  | isEmptyLoadHead hpc => exact ⟨.isEmpty, by simp [step, hpc]⟩
  | popEmpty head hpc hempty =>
      exact ⟨.consumerStep, by simp [step, consumerStep, hpc, hempty]⟩
  | popAdmit head hpc hitem =>
      exact ⟨.consumerStep, by simp [step, consumerStep, hpc, hitem]⟩
  | popTake head value hpc hslot =>
      exact ⟨.consumerStep, by simp [step, consumerStep, hpc, hslot]⟩
  | popUninit head hpc hslot =>
      exact ⟨.consumerStep, by simp [step, consumerStep, hpc, hslot]⟩
  | popPublish head value hpc =>
      exact ⟨.consumerStep, by simp [step, consumerStep, hpc]⟩
  | isEmptyReturn head hpc =>
      exact ⟨.consumerStep, by simp [step, consumerStep, hpc]⟩

theorem run_transition {H es : List (Event α)} {s s' : State α c}
    (h : (machine α c).Run NoOverwrite H s)
    (hfree : ∀ value tail, s.producer = .pushAdmitted value tail →
      s.shared.NextSlotFree)
    (htrans : Transition s es s') :
    (machine α c).Run NoOverwrite (H ++ es) s' := by
  obtain ⟨a, hstep⟩ := htrans.exists_step
  exact h.next (a := a) hfree hstep

theorem run_silent {H : List (Event α)} {s s' : State α c}
    (h : (machine α c).Run NoOverwrite H s)
    (hfree : ∀ value tail, s.producer = .pushAdmitted value tail →
      s.shared.NextSlotFree)
    (htrans : Transition s [] s') : (machine α c).Run NoOverwrite H s' := by
  have hrun := run_transition h hfree htrans
  rwa [List.append_nil] at hrun

/-- An unread item is found in a written slot. -/
theorem SlotInvariant.head_written {H : List (Event α)} {s : State α c}
    (h : SlotInvariant H s) (hcount : CounterInvariant H s)
    (hitem : s.shared.head ≠ s.shared.tail) :
    (s.shared.buf (slot c s.shared.head)).isSome := by
  rw [hcount.head_eq] at hitem ⊢
  have hlt := hcount.item_of_not_empty hitem
  rw [h.slots _ le_rfl hlt, List.getElem?_eq_getElem hlt]
  rfl

/-- A call that overwrites no unread slot takes the atomic machine from one
idle state to the next. -/
theorem CallOutcome.run {sh sh' : Shared α c} {a : Call α}
    {H es : List (Event α)} (h : CallOutcome sh a es sh')
    (hkeeps : KeepsUnread sh a)
    (hrun : (machine α c).Run NoOverwrite H sh.idle) :
    (machine α c).Run NoOverwrite (H ++ es) sh'.idle := by
  cases h with
  | pushFull value hfull =>
      have hloaded := run_silent hrun (by simp [Shared.idle])
        (.pushLoadTail value rfl)
      exact run_transition hloaded (by simp)
        (.pushFull value sh.tail rfl hfull)
  | pushOk value hroom =>
      have hfree : sh.NextSlotFree := hkeeps.resolve_left hroom
      have hloaded := run_silent hrun (by simp [Shared.idle])
        (.pushLoadTail value rfl)
      have hadmitted := run_silent hloaded (by simp)
        (.pushAdmit value sh.tail rfl hroom)
      have hwritten := run_silent hadmitted (fun _ _ _ => hfree)
        (.pushWrite value sh.tail rfl)
      exact run_transition hwritten (by simp)
        (.pushPublish value sh.tail rfl)
  | popEmpty hempty =>
      have hloaded := run_silent hrun (by simp [Shared.idle])
        (.popLoadHead rfl)
      exact run_transition hloaded (by simp [Shared.idle])
        (.popEmpty sh.head rfl hempty)
  | popOk value hitem hslot =>
      have hloaded := run_silent hrun (by simp [Shared.idle])
        (.popLoadHead rfl)
      have hadmitted := run_silent hloaded (by simp [Shared.idle])
        (.popAdmit sh.head rfl hitem)
      have htaken := run_silent hadmitted (by simp [Shared.idle])
        (.popTake sh.head value rfl hslot)
      exact run_transition htaken (by simp [Shared.idle])
        (.popPublish sh.head value rfl)
  | popUninit hitem hslot =>
      have hcount := counterInvariant_of_reaches hrun.reaches
      have hsome := (slotInvariant_of_noOverwrite hrun).head_written hcount hitem
      simp [Shared.idle, hslot] at hsome

theorem idle_run_of_sequential {H : List (Event α)} {sh : Shared α c}
    (h : (sequential α c).Run KeepsUnread H sh) :
    (machine α c).Run NoOverwrite H sh.idle :=
  h.invariant (I := fun H sh => (machine α c).Run NoOverwrite H sh.idle)
    Machine.Run.start
    fun hrun hkeeps hstep => (call_outcome hstep).run hkeeps hrun

/-! ## When a push keeps the unread slots -/

/-- The capacity divides the range of the indices, or the indices have not
wrapped apart, or fewer items are unread than the range leaves over. -/
def Fits (sh : Shared α c) : Call α → Prop
  | .tryPush _ =>
      sh.tail - sh.head = c.val ∨ 2 ^ w % c.val.toNat = 0 ∨
        sh.head ≤ sh.tail ∨
        (sh.tail - sh.head).toNat < 2 ^ w % c.val.toNat
  | .tryPop => True

/-- The wrapping indices from `head` up to `tail` have slots of their own. -/
def DistinctSlots (sh : Shared α c) : Prop :=
  ∀ i j, i < j → j < (sh.tail - sh.head).toNat →
    slot c (sh.head + BitVec.ofNat w i) ≠ slot c (sh.head + BitVec.ofNat w j)

theorem CounterInvariant.distinctSlots_iff {H : List (Event α)}
    {s : State α c} (h : CounterInvariant H s) :
    DistinctSlots s.shared ↔
      DistinctWindow (2 ^ w) c.val.toNat (popped H).length
        (pushed H).length := by
  unfold DistinctSlots DistinctWindow
  rw [h.occupancy, h.head_eq]
  constructor
  · intro hdistinct j k hhead hjk htail hshare
    apply hdistinct (j - (popped H).length) (k - (popped H).length)
      (by omega) (by omega)
    rw [← BitVec.ofNat_add, ← BitVec.ofNat_add, Nat.add_sub_cancel' hhead,
      Nat.add_sub_cancel' (by omega)]
    exact (slot_eq_iff c _ _).mpr hshare
  · intro hdistinct i j hij hj hshare
    rw [← BitVec.ofNat_add, ← BitVec.ofNat_add] at hshare
    exact hdistinct _ _ (by omega) (by omega) (by omega)
      ((slot_eq_iff c _ _).mp hshare)

/-- Where the unread slots are distinct, a push keeps them if and only if it
fits. -/
theorem fits_iff_keepsUnread {H : List (Event α)} {sh : Shared α c}
    (hcount : CounterInvariant H sh.idle) (hdistinct : DistinctSlots sh)
    (a : Call α) : Fits sh a ↔ KeepsUnread sh a := by
  cases a with
  | tryPop => exact Iff.rfl
  | tryPush value =>
      have hwindow := hcount.distinctSlots_iff.mp hdistinct
      have hfree : sh.NextSlotFree ↔ _ := hcount.nextSlotFree_iff
      have hoccupancy : (sh.tail - sh.head).toNat = _ := hcount.occupancy
      have htail : sh.tail = _ := hcount.tail_eq
      have hhead : sh.head = _ := hcount.head_eq
      have horder : sh.head ≤ sh.tail ↔
          (popped H).length % 2 ^ w ≤ (pushed H).length % 2 ^ w := by
        rw [hhead, htail, BitVec.le_def, BitVec.toNat_ofNat,
          BitVec.toNat_ofNat]
      by_cases hfull : sh.tail - sh.head = c.val
      · exact ⟨fun _ => Or.inl hfull, fun _ => Or.inl hfull⟩
      · have hroom := hcount.room_of_not_full (htail ▸ hfull)
        have hfresh := fresh_slot_iff hcount.popped_le hroom
          (capacity_lt_two_pow c).le hwindow
        unfold Fits KeepsUnread
        rw [or_iff_right hfull, or_iff_right hfull, hfree, hfresh, horder,
          hoccupancy]

/-- A call that keeps the unread slots keeps their slots distinct. -/
theorem DistinctSlots.call {H es : List (Event α)} {sh sh' : Shared α c}
    {a : Call α} (hdistinct : DistinctSlots sh)
    (hrun : (machine α c).Run NoOverwrite H sh.idle)
    (hkeeps : KeepsUnread sh a) (h : CallOutcome sh a es sh') :
    DistinctSlots sh' := by
  have hcount := counterInvariant_of_reaches hrun.reaches
  have hcount' := counterInvariant_of_reaches (h.run hkeeps hrun).reaches
  have hwindow := hcount.distinctSlots_iff.mp hdistinct
  cases h with
  | pushFull | popEmpty | popUninit => exact hdistinct
  | pushOk value hroom =>
      have hfree := hcount.nextSlotFree_iff.mp (hkeeps.resolve_left hroom)
      refine hcount'.distinctSlots_iff.mpr ?_
      simpa using hwindow.succ hfree
  | popOk value hitem hslot =>
      refine hcount'.distinctSlots_iff.mpr ?_
      simpa using hwindow.advance (Nat.le_succ _)

theorem distinctSlots_of_run {H : List (Event α)} {sh : Shared α c}
    (h : (sequential α c).Run KeepsUnread H sh) : DistinctSlots sh := by
  refine h.invariant_of_run (I := fun _ sh => DistinctSlots sh)
    (by simp [DistinctSlots, sequential, spsc]) ?_
  intro H es sh sh' a hrun hdistinct hkeeps hstep
  exact hdistinct.call (idle_run_of_sequential hrun) hkeeps
    (call_outcome hstep)

/-- For every capacity and every sequential run, wrapped or not: no push has
overwritten an unread slot, the pops have returned a prefix of the pushed
values and the unread slots are distinct, if and only if every push was made
where it fits. -/
theorem sequential_sound_iff (c : Capacity w) (H : List (Event α))
    (sh : Shared α c) :
    (sequential α c).Run Fits H sh ↔
      (sequential α c).Run KeepsUnread H sh ∧ popped H <+: pushed H ∧
        DistinctSlots sh := by
  have hguards : ∀ {H : List (Event α)} {sh : Shared α c} {a : Call α},
      (sequential α c).Run KeepsUnread H sh →
        (Fits sh a ↔ KeepsUnread sh a) := by
    intro H sh a h
    have hreach := (idle_run_of_sequential h).reaches
    exact fits_iff_keepsUnread (counterInvariant_of_reaches hreach)
      (distinctSlots_of_run h) a
  rw [Machine.run_congr hguards]
  constructor
  · intro h
    have hslot := slotInvariant_of_noOverwrite (idle_run_of_sequential h)
    exact ⟨h, hslot.popped_prefix, distinctSlots_of_run h⟩
  · exact And.left

/-! ## The item lost at the wrap -/

theorem call_tryPush_ok {sh : Shared α c} (value : α)
    (hroom : sh.tail - sh.head ≠ c.val) :
    (sequential α c).step sh (.tryPush value) = some
      ({ sh with
          buf := Function.update sh.buf (slot c sh.tail) (some value)
          tail := sh.tail + 1 }, [.pushReturned value (.ok ())]) := by
  simp [sequential, call, tryPush, hroom]

theorem call_tryPop_some {sh : Shared α c} {value : α}
    (hitem : sh.head ≠ sh.tail)
    (hslot : sh.buf (slot c sh.head) = some value) :
    (sequential α c).step sh .tryPop = some
      ({ sh with head := sh.head + 1 }, [.popReturned (some value)]) := by
  simp [sequential, call, tryPop, hitem, hslot]

/-- A push on a ring with `k < capacity` unread items. -/
theorem tryPush_after {H : List (Event α)} {sh : Shared α c} {n k : ℕ}
    (hrun : (sequential α c).Reaches H sh)
    (hhead : sh.head = BitVec.ofNat w n)
    (htail : sh.tail = BitVec.ofNat w (n + k)) (hk : k < c.val.toNat)
    (value : α) :
    ∃ sh' : Shared α c,
      (sequential α c).Reaches (H ++ [.pushReturned value (.ok ())]) sh' ∧
        sh'.head = BitVec.ofNat w n ∧
        sh'.tail = BitVec.ofNat w (n + (k + 1)) ∧
        sh'.buf (slot c (BitVec.ofNat w (n + k))) = some value := by
  have hroom : sh.tail - sh.head ≠ c.val := by
    rw [htail, hhead, ne_eq, sub_eq_capacity_iff c (by omega) (by omega)]
    omega
  refine ⟨_, hrun.next (call_tryPush_ok value hroom), hhead, ?_, ?_⟩
  · rw [← Nat.add_assoc, ← ofNat_succ, ← htail]
  · rw [← htail]
    exact Function.update_self _ _ _

/-- A pop takes what the slot under `head` holds. -/
theorem tryPop_after {H : List (Event α)} {sh : Shared α c} {n k : ℕ}
    (hrun : (sequential α c).Reaches H sh)
    (hhead : sh.head = BitVec.ofNat w n)
    (htail : sh.tail = BitVec.ofNat w (n + (k + 1)))
    (hk : k < c.val.toNat) {value : α}
    (hslot : sh.buf (slot c (BitVec.ofNat w n)) = some value) :
    ∃ sh' : Shared α c,
      (sequential α c).Reaches (H ++ [.popReturned (some value)]) sh' ∧
        sh'.head = BitVec.ofNat w (n + 1) ∧
        sh'.tail = BitVec.ofNat w (n + (k + 1)) := by
  have hitem : sh.head ≠ sh.tail := by
    rw [htail, hhead, ne_eq, head_eq_tail_iff c (by omega) (by omega)]
    omega
  rw [← hhead] at hslot
  refine ⟨_, hrun.next (call_tryPop_some hitem hslot), ?_, htail⟩
  rw [← ofNat_succ, ← hhead]

/-- Rounds of one push and one pop bring both indices to any count. -/
theorem reaches_rounds (c : Capacity w) (value : α) (n : ℕ) :
    ∃ (H : List (Event α)) (sh : Shared α c),
      (sequential α c).Reaches H sh ∧
        sh.head = BitVec.ofNat w n ∧ sh.tail = BitVec.ofNat w n ∧
        pushed H = List.replicate n value ∧
        popped H = List.replicate n value := by
  induction n with
  | zero => exact ⟨[], _, Machine.Run.start, rfl, rfl, rfl, rfl⟩
  | succ n ih =>
      obtain ⟨H, sh, hrun, hhead, htail, hpushed, hpopped⟩ := ih
      obtain ⟨sh₁, hrun₁, hhead₁, htail₁, hslot⟩ :=
        tryPush_after hrun hhead (k := 0) htail c.pos value
      obtain ⟨sh₂, hrun₂, hhead₂, htail₂⟩ :=
        tryPop_after hrun₁ hhead₁ htail₁ c.pos hslot
      refine ⟨_, sh₂, hrun₂, hhead₂, htail₂, ?_, ?_⟩
      · rw [pushed_append, pushed_append, hpushed]
        simp [List.replicate_succ']
      · rw [popped_append, popped_append, hpopped]
        simp [List.replicate_succ']

/-- Pushes after such rounds fill the ring. -/
theorem reaches_filled (c : Capacity w) (value : α) (n : ℕ) {k : ℕ}
    (hk : k ≤ c.val.toNat) :
    ∃ (H : List (Event α)) (sh : Shared α c),
      (sequential α c).Reaches H sh ∧
        sh.head = BitVec.ofNat w n ∧ sh.tail = BitVec.ofNat w (n + k) ∧
        pushed H = List.replicate (n + k) value ∧
        popped H = List.replicate n value := by
  induction k with
  | zero => exact reaches_rounds c value n
  | succ k ih =>
      obtain ⟨H, sh, hrun, hhead, htail, hpushed, hpopped⟩ := ih (by omega)
      obtain ⟨sh₁, hrun₁, hhead₁, htail₁, -⟩ :=
        tryPush_after hrun hhead htail (by omega) value
      refine ⟨_, sh₁, hrun₁, hhead₁, htail₁, ?_, ?_⟩
      · simp [hpushed, ← Nat.add_assoc, List.replicate_succ']
      · simp [hpopped]

/-- Where the capacity does not divide the range, the push that many items
after the last index overwrites the oldest of them, and the pop returns the
new value in its place. -/
theorem reaches_overwritten (c : Capacity w)
    (hrem : 2 ^ w % c.val.toNat ≠ 0) (value next : α) :
    ∃ (H : List (Event α)) (sh : Shared α c),
      (sequential α c).Reaches H sh ∧
        pushed H = List.replicate (2 ^ w - 1 + 2 ^ w % c.val.toNat) value ++
          [next] ∧
        popped H = List.replicate (2 ^ w - 1) value ++ [next] := by
  have hcap := capacity_lt_two_pow c
  have hlt := Nat.mod_lt (2 ^ w) c.pos
  obtain ⟨H, sh, hrun, hhead, htail, hpushed, hpopped⟩ :=
    reaches_filled c value (2 ^ w - 1) hlt.le
  obtain ⟨sh₁, hrun₁, hhead₁, htail₁, hslot⟩ :=
    tryPush_after hrun hhead htail hlt next
  have hshare : slot c (BitVec.ofNat w (2 ^ w - 1)) =
      slot c (BitVec.ofNat w (2 ^ w - 1 + 2 ^ w % c.val.toNat)) := by
    have hlast : (2 ^ w - 1) % 2 ^ w = 2 ^ w - 1 :=
      Nat.mod_eq_of_lt (by omega)
    have hwrapped : (2 ^ w - 1 + 2 ^ w % c.val.toNat) % 2 ^ w =
        2 ^ w % c.val.toNat - 1 := by
      rw [show 2 ^ w - 1 + 2 ^ w % c.val.toNat =
        2 ^ w % c.val.toNat - 1 + 2 ^ w by omega, Nat.add_mod_right]
      exact Nat.mod_eq_of_lt (by omega)
    rw [slot_eq_iff, cyclicSlot_eq_iff (by omega) (by omega) hcap.le, hlast,
      hwrapped]
    omega
  rw [← hshare] at hslot
  obtain ⟨sh₂, hrun₂, -, -⟩ := tryPop_after hrun₁ hhead₁ htail₁ hlt hslot
  refine ⟨_, sh₂, hrun₂, ?_, ?_⟩
  · rw [pushed_append, pushed_append, hpushed]
    simp
  · rw [popped_append, popped_append, hpopped]
    simp

theorem not_prefix_of_replaced {a b : α} (hab : a ≠ b) {n m : ℕ}
    (hnm : n < m) :
    ¬ List.replicate n a ++ [b] <+: List.replicate m a ++ [b] := by
  intro hprefix
  have hget := List.prefix_iff_getElem?.mp hprefix n (by simp)
  rw [List.getElem?_append_left (by simpa using hnm)] at hget
  simp [hnm] at hget
  exact hab hget

/-- The ring is first-in first-out in every sequential run if and only if its
capacity divides the range of the indices. -/
theorem fifo_iff_mod_eq_zero [Nontrivial α] (c : Capacity w) :
    (∀ (H : List (Event α)) (sh : Shared α c),
      (sequential α c).Reaches H sh → popped H <+: pushed H) ↔
      2 ^ w % c.val.toNat = 0 := by
  constructor
  · intro hfifo
    by_contra hrem
    obtain ⟨a, b, hab⟩ := exists_pair_ne α
    obtain ⟨H, sh, hrun, hpushed, hpopped⟩ := reaches_overwritten c hrem a b
    have hprefix := hfifo H sh hrun
    rw [hpushed, hpopped] at hprefix
    exact not_prefix_of_replaced hab (by omega) hprefix
  · intro hdvd H sh hrun
    have hfits : (sequential α c).Run Fits H sh := by
      refine (Machine.run_congr ?_ H sh).mp hrun
      intro H sh a _
      cases a <;> simp [Fits, hdvd]
    exact ((sequential_sound_iff c H sh).mp hfits).2.1

/-- A ring of three slots with 64-bit indices.  After `2 ^ 64 - 1` rounds of
`try_push(0)` and `try_pop()`, a further `try_push(0)` and `try_push(1)` share
a slot, and the next `try_pop()` returns `1`. -/
theorem not_fifo_three_slots :
    ∃ (H : List (Event ℕ)) (sh : Shared ℕ (⟨3#64, by decide⟩ : Capacity 64)),
      (sequential ℕ _).Reaches H sh ∧
        pushed H = List.replicate (2 ^ 64) 0 ++ [1] ∧
        popped H = List.replicate (2 ^ 64 - 1) 0 ++ [1] ∧
        ¬ popped H <+: pushed H := by
  obtain ⟨H, sh, hrun, hpushed, hpopped⟩ :=
    reaches_overwritten (⟨3#64, by decide⟩ : Capacity 64) (by decide) 0 1
  refine ⟨H, sh, hrun, hpushed, hpopped, ?_⟩
  rw [hpushed, hpopped]
  exact not_prefix_of_replaced (by decide) (by decide)

end TympanApo.Realtime.Ring
