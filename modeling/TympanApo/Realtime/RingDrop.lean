import TympanApo.Realtime.RingStability
import TympanApo.Realtime.RingLinearization

/-!
# The ring's whole lifetime

Each handle keeps the shared memory alive.  When the second one is dropped,
in either order, `Drop for Shared` walks the indices from `head` up to `tail`
and drops the item in each slot.  Reads leave the bytes of a slot in place, so
only the indices tell which slots still own a value.

The module accounts for every value handed to `try_push`: it is popped, or
dropped by the ring, or handed back.
-/

namespace TympanApo.Realtime.Ring

open TympanApo.Support
open scoped List

variable {w : ℕ} {α : Type*} {c : Capacity w}

/-! ## Handles and the drain loop -/

/-- Which handles are alive, and after them how far `Drop for Shared` is.
`draining i tail` is the head of its loop. -/
inductive Phase (w : ℕ)
  | both
  | producerOnly
  | consumerOnly
  | draining (i tail : BitVec w)
  | freed

/-- A ring with its handles. -/
structure Lifetime (α : Type*) (c : Capacity w) where
  ring : State α c
  phase : Phase w

/-- A step of the ring, the drop of an idle handle, or one test of the drain
loop with the iteration that follows it. -/
inductive LifetimeAction (α : Type*)
  | ring (action : Action α)
  | dropProducer
  | dropConsumer
  | drain

/-- What becomes known over a lifetime: the events of the ring, and what the
drain loop drops. -/
inductive LifetimeEvent (α : Type*)
  | ring (event : Event α)
  | dropped (value : α)
  | uninitDrop

/-- Whether the handle an action needs is alive. -/
def Phase.allows : Phase w → Action α → Bool
  | .both, _ => true
  | .producerOnly, a => a.isProducer
  | .consumerOnly, a => !a.isProducer
  | .draining _ _, _ => false
  | .freed, _ => false

/-- The second handle to go runs `Drop for Shared`, which loads both
indices. -/
def Lifetime.startDrain (s : Lifetime α c) : Lifetime α c :=
  { s with phase := .draining s.ring.shared.head s.ring.shared.tail }

@[simp] theorem Lifetime.startDrain_ring (s : Lifetime α c) :
    s.startDrain.ring = s.ring := rfl

/-- A handle can only be dropped between calls, since a call borrows it. -/
def dropProducer (s : Lifetime α c) : Option (Lifetime α c) :=
  match s.ring.producer, s.phase with
  | .idle, .both => some { s with phase := .consumerOnly }
  | .idle, .producerOnly => some s.startDrain
  | _, _ => none

def dropConsumer (s : Lifetime α c) : Option (Lifetime α c) :=
  match s.ring.consumer, s.phase with
  | .idle, .both => some { s with phase := .producerOnly }
  | .idle, .consumerOnly => some s.startDrain
  | _, _ => none

/-- `while i != tail` in `Drop for Shared`. -/
def drain (s : Lifetime α c) :
    Option (Lifetime α c × List (LifetimeEvent α)) :=
  match s.phase with
  | .draining i tail =>
      if i = tail then
        some ({ s with phase := .freed }, [])
      else
        match s.ring.shared.buf (slot c i) with
        | some value =>
            some ({ s with phase := .draining (i + 1) tail }, [.dropped value])
        | none =>
            some ({ s with phase := .draining (i + 1) tail }, [.uninitDrop])
  | _ => none

def lifetimeStep (s : Lifetime α c) :
    LifetimeAction α → Option (Lifetime α c × List (LifetimeEvent α))
  | .ring a =>
      if s.phase.allows a then
        (step s.ring a).map fun (ring, es) =>
          ({ s with ring := ring }, es.map .ring)
      else
        none
  | .dropProducer => (dropProducer s).map fun s' => (s', [])
  | .dropConsumer => (dropConsumer s).map fun s' => (s', [])
  | .drain => drain s

/-- The ring from `spsc` to the end of `Drop for Shared`. -/
def lifetime (α : Type*) (c : Capacity w) :
    Machine (Lifetime α c) (LifetimeAction α) (LifetimeEvent α) where
  init := { ring := spsc α c, phase := .both }
  step := lifetimeStep

/-- What one step of the lifetime can do. -/
inductive LifetimeTransition (s : Lifetime α c) :
    LifetimeAction α → List (LifetimeEvent α) → Lifetime α c → Prop
  | ring {ring : State α c} {a : Action α} {es : List (Event α)}
      (halive : s.phase.allows a = true) (hstep : step s.ring a = some (ring, es)) :
      LifetimeTransition s (.ring a) (es.map .ring) { s with ring := ring }
  | dropFirst (a : LifetimeAction α) (phase : Phase w)
      (hboth : s.phase = .both)
      (hphase : phase = .producerOnly ∨ phase = .consumerOnly) :
      LifetimeTransition s a [] { s with phase := phase }
  | dropSecond (a : LifetimeAction α)
      (hlast : s.phase = .producerOnly ∨ s.phase = .consumerOnly) :
      LifetimeTransition s a [] s.startDrain
  | drainItem {i tail : BitVec w} (hphase : s.phase = .draining i tail)
      (hmore : i ≠ tail) (value : α)
      (hslot : s.ring.shared.buf (slot c i) = some value) :
      LifetimeTransition s .drain [.dropped value]
        { s with phase := .draining (i + 1) tail }
  | drainUninit {i tail : BitVec w} (hphase : s.phase = .draining i tail)
      (hmore : i ≠ tail) (hslot : s.ring.shared.buf (slot c i) = none) :
      LifetimeTransition s .drain [.uninitDrop]
        { s with phase := .draining (i + 1) tail }
  | drainEnd {i : BitVec w} (hphase : s.phase = .draining i i) :
      LifetimeTransition s .drain [] { s with phase := .freed }

theorem lifetimeStep_transition {s s' : Lifetime α c} {a : LifetimeAction α}
    {es : List (LifetimeEvent α)} (h : lifetimeStep s a = some (s', es)) :
    LifetimeTransition s a es s' := by
  cases a with
  | ring a =>
      simp only [lifetimeStep] at h
      split at h
      next halive =>
        obtain ⟨⟨ring, es'⟩, hstep, heq⟩ := Option.map_eq_some_iff.mp h
        cases heq
        exact .ring halive hstep
      · cases h
  | dropProducer =>
      simp only [lifetimeStep, dropProducer] at h
      split at h <;> cases h
      next hphase => exact .dropFirst _ _ hphase (Or.inr rfl)
      next hphase => exact .dropSecond _ (Or.inl hphase)
  | dropConsumer =>
      simp only [lifetimeStep, dropConsumer] at h
      split at h <;> cases h
      next hphase => exact .dropFirst _ _ hphase (Or.inl rfl)
      next hphase => exact .dropSecond _ (Or.inr hphase)
  | drain =>
      simp only [lifetimeStep, drain] at h
      split at h
      next i tail hphase =>
        split at h
        next hend =>
          cases h
          obtain rfl := hend
          exact .drainEnd hphase
        next hmore =>
          split at h <;> cases h
          next value hslot => exact .drainItem hphase hmore value hslot
          next hslot => exact .drainUninit hphase hmore hslot
      · cases h

/-! ## Histories of a lifetime -/

/-- The ring's part of the history. -/
def ringEvents (H : List (LifetimeEvent α)) : List (Event α) :=
  H.filterMap fun
    | .ring e => some e
    | _ => none

/-- What the drain loop dropped, in order. -/
def dropped (H : List (LifetimeEvent α)) : List α :=
  H.filterMap fun
    | .dropped value => some value
    | _ => none

/-- The arguments of the pushes that returned. -/
def attempted (H : List (Event α)) : List α :=
  H.filterMap fun
    | .pushReturned value _ => some value
    | _ => none

/-- The values handed back in `Err`. -/
def refused (H : List (Event α)) : List α :=
  H.filterMap fun
    | .pushReturned _ (.error back) => some back
    | _ => none

@[simp] theorem ringEvents_append (H es : List (LifetimeEvent α)) :
    ringEvents (H ++ es) = ringEvents H ++ ringEvents es :=
  List.filterMap_append

@[simp] theorem dropped_append (H es : List (LifetimeEvent α)) :
    dropped (H ++ es) = dropped H ++ dropped es :=
  List.filterMap_append

@[simp] theorem ringEvents_map_ring (es : List (Event α)) :
    ringEvents (es.map .ring) = es := by
  simp [ringEvents, List.filterMap_map]

@[simp] theorem dropped_map_ring (es : List (Event α)) :
    dropped (es.map .ring) = [] := by
  simp [dropped, List.filterMap_map]

@[simp] theorem ringEvents_nil :
    ringEvents ([] : List (LifetimeEvent α)) = [] := rfl

@[simp] theorem dropped_nil : dropped ([] : List (LifetimeEvent α)) = [] := rfl

@[simp] theorem ringEvents_dropped (value : α) :
    ringEvents [.dropped value] = [] := rfl

@[simp] theorem dropped_dropped (value : α) :
    dropped [.dropped value] = [value] := rfl

@[simp] theorem ringEvents_uninitDrop :
    ringEvents ([.uninitDrop] : List (LifetimeEvent α)) = [] := rfl

@[simp] theorem dropped_uninitDrop :
    dropped ([.uninitDrop] : List (LifetimeEvent α)) = [] := rfl

/-- The steps of a lifetime that are the ring's form a run of the ring. -/
theorem ring_reaches {H : List (LifetimeEvent α)} {s : Lifetime α c}
    (h : (lifetime α c).Reaches H s) :
    (machine α c).Reaches (ringEvents H) s.ring := by
  refine h.invariant
    (I := fun H s => (machine α c).Reaches (ringEvents H) s.ring)
    Machine.Run.start ?_
  intro H es s s' a hring _ hstep
  cases lifetimeStep_transition hstep with
  | ring halive hring' =>
      rw [ringEvents_append, ringEvents_map_ring]
      exact hring.next hring'
  | dropFirst | dropSecond | drainItem | drainUninit | drainEnd =>
      simpa using hring

/-- Every push that returned either succeeded or handed its value back. -/
theorem attempted_perm {H : List (Event α)} {s : State α c}
    (h : (machine α c).Reaches H s) :
    attempted H ~ pushed H ++ refused H := by
  refine h.invariant
    (I := fun H _ => attempted H ~ pushed H ++ refused H) (by rfl) ?_
  intro H es s s' a hperm _ hstep
  have hsplit : attempted (H ++ es) = attempted H ++ attempted es :=
    List.filterMap_append
  have hsplit' : refused (H ++ es) = refused H ++ refused es :=
    List.filterMap_append
  have hstep' : attempted es = pushed es ++ refused es := by
    cases step_transition hstep <;> rfl
  rw [hsplit, hsplit', pushed_append, hstep']
  calc attempted H ++ (pushed es ++ refused es)
    _ ~ (pushed H ++ refused H) ++ (pushed es ++ refused es) :=
        hperm.append_right _
    _ = pushed H ++ (refused H ++ (pushed es ++ refused es)) :=
        List.append_assoc _ _ _
    _ ~ pushed H ++ (pushed es ++ (refused H ++ refused es)) :=
        (List.perm_append_comm_assoc _ _ _).append_left _
    _ = (pushed H ++ pushed es) ++ (refused H ++ refused es) :=
        (List.append_assoc _ _ _).symm

/-! ## The drain loop -/

/-- Where the drain loop stands after `count` of `unread` items. -/
def Phase.Stands (sh : Shared α c) (unread count : ℕ) : Phase w → Prop
  | .draining i tail =>
      i = sh.head + BitVec.ofNat w count ∧ tail = sh.tail
  | .freed => count = unread
  | _ => count = 0

/-- Nothing but unread items has been dropped, oldest first, and none of them
before both handles are gone. -/
structure DropInvariant (H : List (LifetimeEvent α)) (s : Lifetime α c) :
    Prop where
  dropped_prefix : dropped H <+: contents (ringEvents H)
  stands : s.phase.Stands s.ring.shared (contents (ringEvents H)).length
    (dropped H).length
  initialised : LifetimeEvent.uninitDrop ∉ H

/-- While a handle is alive nothing has been dropped. -/
theorem Phase.Stands.of_allows {sh sh' : Shared α c} {n n' count : ℕ}
    {phase : Phase w} {a : Action α} (h : phase.Stands sh n count)
    (halive : phase.allows a = true) :
    count = 0 ∧ phase.Stands sh' n' count := by
  cases phase with
  | both | producerOnly | consumerOnly => exact ⟨h, h⟩
  | draining | freed => cases halive

section Draining

variable {H : List (LifetimeEvent α)} {s : Lifetime α c} {i tail : BitVec w}

/-- The loop index counts the items that left the ring either way. -/
theorem DropInvariant.index_eq (h : DropInvariant H s)
    (hcount : CounterInvariant (ringEvents H) s.ring)
    (hphase : s.phase = .draining i tail) :
    i = BitVec.ofNat w ((popped (ringEvents H)).length + (dropped H).length) ∧
      tail = BitVec.ofNat w (pushed (ringEvents H)).length ∧
      (popped (ringEvents H)).length + (dropped H).length ≤
        (pushed (ringEvents H)).length := by
  have hstands := h.stands
  rw [hphase] at hstands
  obtain ⟨rfl, rfl⟩ := hstands
  have hlen := h.dropped_prefix.length_le
  have hle := hcount.popped_le
  rw [contents_length] at hlen
  refine ⟨?_, hcount.tail_eq, by omega⟩
  rw [hcount.head_eq, BitVec.ofNat_add]

/-- The loop ends when every unread item has been dropped. -/
theorem DropInvariant.index_eq_tail_iff (h : DropInvariant H s)
    (hcount : CounterInvariant (ringEvents H) s.ring)
    (hphase : s.phase = .draining i tail) :
    i = tail ↔ (dropped H).length = (contents (ringEvents H)).length := by
  obtain ⟨rfl, rfl, hle⟩ := h.index_eq hcount hphase
  have hroom := hcount.pushed_le
  rw [head_eq_tail_iff c hle (by omega), contents_length]
  omega

/-- Before that, the loop is at the slot of the oldest item left. -/
theorem DropInvariant.slot_eq (h : DropInvariant H s)
    (hcount : CounterInvariant (ringEvents H) s.ring)
    (hslot : SlotInvariant (ringEvents H) s.ring)
    (hphase : s.phase = .draining i tail) (hmore : i ≠ tail) :
    s.ring.shared.buf (slot c i) =
      (contents (ringEvents H))[(dropped H).length]? := by
  have hend := h.index_eq_tail_iff hcount hphase
  obtain ⟨rfl, rfl, hle⟩ := h.index_eq hcount hphase
  rw [ne_eq, hend, contents_length] at hmore
  rw [hslot.slots _ (by omega) (by omega), contents, List.getElem?_drop]

/-- The loop index is as far from `tail` as there are items left. -/
theorem DropInvariant.left_eq (h : DropInvariant H s)
    (hcount : CounterInvariant (ringEvents H) s.ring)
    (hphase : s.phase = .draining i tail) :
    (tail - i).toNat =
      (contents (ringEvents H)).length - (dropped H).length := by
  obtain ⟨rfl, rfl, hle⟩ := h.index_eq hcount hphase
  have hcap := capacity_lt_two_pow c
  have hroom := hcount.pushed_le
  rw [ofNat_sub_ofNat hle, BitVec.toNat_ofNat, Nat.mod_eq_of_lt (by omega),
    contents_length]
  omega

/-- A prefix grows by the next element of the list. -/
theorem prefix_concat_of_getElem? {l m : List α} {value : α} (h : l <+: m)
    (hnext : m[l.length]? = some value) : l ++ [value] <+: m := by
  obtain ⟨rest, rfl⟩ := h
  cases rest with
  | nil => simp at hnext
  | cons first rest =>
      obtain rfl : first = value := by simpa using hnext
      exact ⟨rest, by simp⟩

end Draining

/-- A step that neither moves the ring nor drops an item. -/
theorem DropInvariant.of_quiet {H : List (LifetimeEvent α)}
    {s s' : Lifetime α c} (h : DropInvariant H s) (hring : s'.ring = s.ring)
    (hstands : s'.phase.Stands s.ring.shared
      (contents (ringEvents H)).length (dropped H).length) :
    DropInvariant (H ++ []) s' := by
  rw [List.append_nil]
  refine ⟨h.dropped_prefix, ?_, h.initialised⟩
  rw [hring]
  exact hstands

/-- One iteration drops the oldest item left. -/
theorem DropInvariant.drainItem {H : List (LifetimeEvent α)}
    {s : Lifetime α c} {i tail : BitVec w} {value : α}
    (h : DropInvariant H s) (hphase : s.phase = .draining i tail)
    (hnext : (contents (ringEvents H))[(dropped H).length]? = some value) :
    DropInvariant (H ++ [.dropped value])
      { s with phase := .draining (i + 1) tail } := by
  have hstands := h.stands
  rw [hphase] at hstands
  obtain ⟨rfl, rfl⟩ := hstands
  refine ⟨?_, ?_, ?_⟩
  · simpa using prefix_concat_of_getElem? h.dropped_prefix hnext
  · have hlen : (dropped (H ++ [.dropped value])).length =
        (dropped H).length + 1 := by simp
    refine ⟨?_, rfl⟩
    rw [hlen, ← ofNat_succ, ← BitVec.add_assoc]
  · simpa using h.initialised

theorem DropInvariant.transition {H es : List (LifetimeEvent α)}
    {s s' : Lifetime α c} {a : LifetimeAction α} (h : DropInvariant H s)
    (hcount : CounterInvariant (ringEvents H) s.ring)
    (hslot : SlotInvariant (ringEvents H) s.ring)
    (htrans : LifetimeTransition s a es s') : DropInvariant (H ++ es) s' := by
  have hstands := h.stands
  cases htrans with
  | @ring ring a es halive hstep =>
      obtain ⟨hnone, hstands'⟩ := hstands.of_allows halive
      have hnil : dropped H = [] := List.length_eq_zero_iff.mp hnone
      refine ⟨?_, ?_, ?_⟩
      · simp [hnil]
      · simpa using hstands'
      · simpa using h.initialised
  | dropFirst a phase hboth hphase =>
      rw [hboth] at hstands
      rcases hphase with rfl | rfl
      · exact h.of_quiet rfl hstands
      · exact h.of_quiet rfl hstands
  | dropSecond a hlast =>
      have hnone : (dropped H).length = 0 := by
        rcases hlast with hphase | hphase
        · rwa [hphase] at hstands
        · rwa [hphase] at hstands
      refine h.of_quiet rfl ⟨?_, rfl⟩
      rw [hnone]
      exact (BitVec.add_zero _).symm
  | drainItem hphase hmore value hvalue =>
      rw [h.slot_eq hcount hslot hphase hmore] at hvalue
      exact h.drainItem hphase hvalue
  | drainUninit hphase hmore hnone =>
      rw [h.slot_eq hcount hslot hphase hmore] at hnone
      have hlen := h.dropped_prefix.length_le
      have hend := List.getElem?_eq_none_iff.mp hnone
      have heq := (h.index_eq_tail_iff hcount hphase).mpr (by omega)
      exact absurd heq hmore
  | drainEnd hphase =>
      exact h.of_quiet rfl ((h.index_eq_tail_iff hcount hphase).mp rfl)

theorem dropInvariant_init : DropInvariant [] (lifetime α c).init where
  dropped_prefix := by simp
  stands := rfl
  initialised := by simp

/-- Before the indices wrap the drain loop is right in every lifetime. -/
theorem dropInvariant_of_reaches {H : List (LifetimeEvent α)}
    {s : Lifetime α c} (h : (lifetime α c).Reaches H s)
    (hbound : (pushed (ringEvents H)).length < 2 ^ w) : DropInvariant H s := by
  have hall := h.invariant_of_run
    (I := fun H s => (pushed (ringEvents H)).length < 2 ^ w →
      DropInvariant H s) (fun _ => dropInvariant_init) ?_
  · exact hall hbound
  · intro H es s s' a hreach hinv _ hstep hbound'
    rw [ringEvents_append, pushed_append, List.length_append] at hbound'
    have hprev : (pushed (ringEvents H)).length < 2 ^ w := by omega
    have hring := ring_reaches hreach
    exact (hinv hprev).transition (counterInvariant_of_reaches hring)
      (slotInvariant_of_reaches hring hprev) (lifetimeStep_transition hstep)

/-! ## The loop terminates -/

theorem drain_of_eq {s : Lifetime α c} {i : BitVec w}
    (hphase : s.phase = .draining i i) :
    (lifetime α c).step s .drain = some ({ s with phase := .freed }, []) := by
  simp [lifetime, lifetimeStep, drain, hphase]

theorem drain_of_ne {s : Lifetime α c} {i tail : BitVec w} {value : α}
    (hphase : s.phase = .draining i tail) (hmore : i ≠ tail)
    (hslot : s.ring.shared.buf (slot c i) = some value) :
    (lifetime α c).step s .drain = some
      ({ s with phase := .draining (i + 1) tail }, [.dropped value]) := by
  simp [lifetime, lifetimeStep, drain, hphase, hmore, hslot]

/-- From any point of the loop, one iteration for each item left and the test
that ends it free the ring. -/
theorem drain_completes {rest : List α} {H : List (LifetimeEvent α)}
    {s : Lifetime α c} {i tail : BitVec w} (h : (lifetime α c).Reaches H s)
    (hbound : (pushed (ringEvents H)).length < 2 ^ w)
    (hphase : s.phase = .draining i tail)
    (hrest : contents (ringEvents H) = dropped H ++ rest) :
    (lifetime α c).execFrom (List.replicate (rest.length + 1) .drain) H s =
      some (H ++ rest.map .dropped, { s with phase := .freed }) := by
  induction rest generalizing H s i with
  | nil =>
      have hcount := counterInvariant_of_reaches (ring_reaches h)
      have hend := (dropInvariant_of_reaches h hbound).index_eq_tail_iff
        hcount hphase
      rw [hrest, List.append_nil] at hend
      obtain rfl := hend.mpr rfl
      rw [List.length_nil, Nat.zero_add, List.replicate_one,
        Machine.execFrom_cons (drain_of_eq hphase)]
      simp [Machine.execFrom]
  | cons value rest ih =>
      have hring := ring_reaches h
      have hcount := counterInvariant_of_reaches hring
      have hinv := dropInvariant_of_reaches h hbound
      have hmore : i ≠ tail := by
        rw [ne_eq, hinv.index_eq_tail_iff hcount hphase, hrest]
        simp
      have hvalue : s.ring.shared.buf (slot c i) = some value := by
        rw [hinv.slot_eq hcount (slotInvariant_of_reaches hring hbound) hphase
          hmore, hrest]
        simp
      have hstep := drain_of_ne hphase hmore hvalue
      have hloop := ih (h.next hstep) (by simpa using hbound) rfl
        (by simpa using hrest)
      rw [List.length_cons, List.replicate_succ, Machine.execFrom_cons hstep,
        hloop]
      simp

/-! ## Accounting -/

/-- The drops of the two handles, one after the other, in either order. -/
def DropsBoth (as : List (LifetimeAction α)) : Prop :=
  as = [.dropProducer, .dropConsumer] ∨ as = [.dropConsumer, .dropProducer]

/-- What a lifetime with history `H` owes the values handed to `try_push`. -/
structure Accounted (H : List (LifetimeEvent α)) (s : Lifetime α c) :
    Prop where
  /-- The first handle to go leaves the ring to the other one. -/
  firstDrop : s.phase = .both →
    (s.ring.producer = .idle → lifetimeStep s .dropProducer =
      some ({ s with phase := .consumerOnly }, [])) ∧
    (s.ring.consumer = .idle → lifetimeStep s .dropConsumer =
      some ({ s with phase := .producerOnly }, []))
  /-- The second one to go, whichever it is, starts the loop of
  `Drop for Shared` at `head`, to end at `tail`. -/
  secondDrop :
    (s.phase = .producerOnly → s.ring.producer = .idle →
      lifetimeStep s .dropProducer =
        some ({ s with
          phase := .draining s.ring.shared.head s.ring.shared.tail }, [])) ∧
    (s.phase = .consumerOnly → s.ring.consumer = .idle →
      lifetimeStep s .dropConsumer =
        some ({ s with
          phase := .draining s.ring.shared.head s.ring.shared.tail }, []))
  /-- Both handles dropped between calls, in either order, and the loop then
  frees the ring after `tail - head` iterations, which drop what was pushed and
  not popped. -/
  bothDropped : s.phase = .both → s.ring.producer = .idle →
    s.ring.consumer = .idle → ∀ drops, DropsBoth drops →
      let left := (s.ring.shared.tail - s.ring.shared.head).toNat
      left = (contents (ringEvents H)).length ∧
        (lifetime α c).execFrom (drops ++ List.replicate (left + 1) .drain)
            H s =
          some (H ++ (contents (ringEvents H)).map .dropped,
            { s with phase := .freed })
  /-- No slot is read or dropped before it is written. -/
  initialised : LifetimeEvent.ring .uninitRead ∉ H ∧
    LifetimeEvent.uninitDrop ∉ H
  /-- Only items pushed and not popped are dropped, oldest first. -/
  dropped_prefix : dropped H <+: contents (ringEvents H)
  /-- The loop ends after as many further iterations as its indices are
  apart, each of which drops one of the items left. -/
  terminates : ∀ i tail, s.phase = .draining i tail →
    ∃ rest, contents (ringEvents H) = dropped H ++ rest ∧
      rest.length = (tail - i).toNat ∧
      (lifetime α c).execFrom
          (List.replicate ((tail - i).toNat + 1) .drain) H s =
        some (H ++ rest.map .dropped, { s with phase := .freed })
  /-- Nothing else happens in the meantime. -/
  undisturbed : ∀ i tail a s' es, s.phase = .draining i tail →
    lifetimeStep s a = some (s', es) → a = .drain
  /-- Once the ring is freed, `tail - head` items have been dropped, and they
  are what the pops left. -/
  freed : s.phase = .freed →
    (dropped H).length = (s.ring.shared.tail - s.ring.shared.head).toNat ∧
      pushed (ringEvents H) = popped (ringEvents H) ++ dropped H
  /-- Every value given to `try_push` is popped, or dropped by the ring, or
  handed back. -/
  owned_once : s.phase = .freed → attempted (ringEvents H) ~
    popped (ringEvents H) ++ dropped H ++ refused (ringEvents H)
  /-- A value that was handed back is not dropped. -/
  handed_back : (attempted (ringEvents H)).Nodup →
    ∀ value ∈ refused (ringEvents H), value ∉ dropped H

theorem dropProducer_of_both {s : Lifetime α c} (hphase : s.phase = .both)
    (hidle : s.ring.producer = .idle) :
    (lifetime α c).step s .dropProducer =
      some ({ s with phase := .consumerOnly }, []) := by
  simp [lifetime, lifetimeStep, dropProducer, hphase, hidle]

theorem dropConsumer_of_both {s : Lifetime α c} (hphase : s.phase = .both)
    (hidle : s.ring.consumer = .idle) :
    (lifetime α c).step s .dropConsumer =
      some ({ s with phase := .producerOnly }, []) := by
  simp [lifetime, lifetimeStep, dropConsumer, hphase, hidle]

theorem dropProducer_of_last {s : Lifetime α c}
    (hphase : s.phase = .producerOnly) (hidle : s.ring.producer = .idle) :
    (lifetime α c).step s .dropProducer = some ({ s with
      phase := .draining s.ring.shared.head s.ring.shared.tail }, []) := by
  simp [lifetime, lifetimeStep, dropProducer, Lifetime.startDrain, hphase,
    hidle]

theorem dropConsumer_of_last {s : Lifetime α c}
    (hphase : s.phase = .consumerOnly) (hidle : s.ring.consumer = .idle) :
    (lifetime α c).step s .dropConsumer = some ({ s with
      phase := .draining s.ring.shared.head s.ring.shared.tail }, []) := by
  simp [lifetime, lifetimeStep, dropConsumer, Lifetime.startDrain, hphase,
    hidle]

/-- In either order the two drops lead to the start of the drain loop. -/
theorem execFrom_dropsBoth {s : Lifetime α c} (hphase : s.phase = .both)
    (hproducer : s.ring.producer = .idle) (hconsumer : s.ring.consumer = .idle)
    {drops : List (LifetimeAction α)} (hdrops : DropsBoth drops)
    (as : List (LifetimeAction α)) (H : List (LifetimeEvent α)) :
    (lifetime α c).execFrom (drops ++ as) H s =
      (lifetime α c).execFrom as H { s with
        phase := .draining s.ring.shared.head s.ring.shared.tail } := by
  rcases hdrops with rfl | rfl
  · have hsecond := dropConsumer_of_last
      (s := { s with phase := .consumerOnly }) rfl hconsumer
    rw [List.cons_append, List.cons_append, List.nil_append,
      Machine.execFrom_cons (dropProducer_of_both hphase hproducer),
      Machine.execFrom_cons hsecond, List.append_nil, List.append_nil]
  · have hsecond := dropProducer_of_last
      (s := { s with phase := .producerOnly }) rfl hproducer
    rw [List.cons_append, List.cons_append, List.nil_append,
      Machine.execFrom_cons (dropConsumer_of_both hphase hconsumer),
      Machine.execFrom_cons hsecond, List.append_nil, List.append_nil]

/-- Between the first and the second drop nothing has been drained. -/
theorem execFrom_bothDropped {H : List (LifetimeEvent α)} {s : Lifetime α c}
    (h : (lifetime α c).Reaches H s)
    (hbound : (pushed (ringEvents H)).length < 2 ^ w) (hphase : s.phase = .both)
    (hproducer : s.ring.producer = .idle) (hconsumer : s.ring.consumer = .idle)
    {drops : List (LifetimeAction α)} (hdrops : DropsBoth drops) :
    (lifetime α c).execFrom
        (drops ++ List.replicate ((contents (ringEvents H)).length + 1) .drain)
        H s =
      some (H ++ (contents (ringEvents H)).map .dropped,
        { s with phase := .freed }) := by
  have hstands := (dropInvariant_of_reaches h hbound).stands
  rw [hphase] at hstands
  have hnone : dropped H = [] := List.length_eq_zero_iff.mp hstands
  have hdropped : (lifetime α c).execFrom (drops ++ []) H s =
      some (H, { s with
        phase := .draining s.ring.shared.head s.ring.shared.tail }) := by
    rw [execFrom_dropsBoth hphase hproducer hconsumer hdrops]
    rfl
  have hstart := h.execFrom hdropped
  rw [execFrom_dropsBoth hphase hproducer hconsumer hdrops]
  exact drain_completes hstart hbound rfl (by rw [hnone, List.nil_append])

/-- While the drain loop runs, it alone can move. -/
theorem LifetimeTransition.eq_drain {s s' : Lifetime α c}
    {a : LifetimeAction α} {es : List (LifetimeEvent α)} {i tail : BitVec w}
    (h : LifetimeTransition s a es s')
    (hphase : s.phase = .draining i tail) : a = .drain := by
  cases h with
  | ring halive hstep =>
      rw [hphase] at halive
      cases halive
  | dropFirst a phase hboth hnext =>
      rw [hphase] at hboth
      cases hboth
  | dropSecond a hlast =>
      rw [hphase] at hlast
      rcases hlast with hlast | hlast <;> cases hlast
  | drainItem | drainUninit | drainEnd => rfl

/-- The drain loop drops no value that was handed back. -/
theorem not_dropped_of_refused {H : List (LifetimeEvent α)}
    {s : Lifetime α c} (h : (lifetime α c).Reaches H s)
    (hunread : dropped H <+: contents (ringEvents H))
    (hnodup : (attempted (ringEvents H)).Nodup) {value : α}
    (hrefused : value ∈ refused (ringEvents H)) : value ∉ dropped H := by
  intro hdropped
  have hperm := attempted_perm (ring_reaches h)
  obtain ⟨-, -, hapart⟩ := List.nodup_append.mp (hperm.nodup_iff.mp hnodup)
  have hmem := List.mem_of_mem_drop (hunread.subset hdropped)
  exact hapart value hmem value hrefused rfl

/-- For every capacity and every lifetime with fewer than `2 ^ w` successful
pushes, every value given to `try_push` leaves the ring exactly once. -/
theorem accounted_of_reaches {H : List (LifetimeEvent α)}
    {s : Lifetime α c} (h : (lifetime α c).Reaches H s)
    (hbound : (pushed (ringEvents H)).length < 2 ^ w) : Accounted H s := by
  have hring := ring_reaches h
  have hcount := counterInvariant_of_reaches hring
  have hslot := slotInvariant_of_reaches hring hbound
  have hinv := dropInvariant_of_reaches h hbound
  have hfreed : s.phase = .freed → dropped H = contents (ringEvents H) := by
    intro hphase
    have hstands := hinv.stands
    rw [hphase] at hstands
    exact hinv.dropped_prefix.eq_of_length hstands
  refine
    { firstDrop := fun hphase =>
        ⟨dropProducer_of_both hphase, dropConsumer_of_both hphase⟩
      secondDrop := ⟨dropProducer_of_last, dropConsumer_of_last⟩
      bothDropped := ?_
      initialised := ⟨?_, hinv.initialised⟩
      dropped_prefix := hinv.dropped_prefix
      terminates := ?_
      undisturbed := fun i tail a s' es hphase hstep =>
        (lifetimeStep_transition hstep).eq_drain hphase
      freed := ?_
      owned_once := ?_
      handed_back := fun hnodup value hrefused =>
        not_dropped_of_refused h hinv.dropped_prefix hnodup hrefused }
  · intro hphase hproducer hconsumer drops hdrops left
    have hleft : left = (contents (ringEvents H)).length :=
      hcount.occupancy.trans (contents_length _).symm
    refine ⟨hleft, ?_⟩
    rw [hleft]
    exact execFrom_bothDropped h hbound hphase hproducer hconsumer hdrops
  · intro huninit
    apply hslot.initialised
    exact List.mem_filterMap.mpr ⟨_, huninit, rfl⟩
  · intro i tail hphase
    obtain ⟨rest, hrest⟩ := hinv.dropped_prefix
    have hlen : rest.length = (tail - i).toNat := by
      rw [hinv.left_eq hcount hphase, ← hrest, List.length_append]
      omega
    refine ⟨rest, hrest.symm, hlen, ?_⟩
    rw [← hlen]
    exact drain_completes h hbound hphase hrest.symm
  · intro hphase
    rw [hfreed hphase]
    refine ⟨?_, hslot.pushed_eq⟩
    rw [hcount.occupancy, contents_length]
  · intro hphase
    rw [hfreed hphase, ← hslot.pushed_eq]
    exact attempted_perm hring

/-- Two slots, three pushes of which one is refused, and one pop.  Whichever
handle goes first, the drain loop drops the item left. -/
theorem accounted_two_slots :
    (∃ s : Lifetime ℕ (⟨2#8, by decide⟩ : Capacity 8),
      Accounted
        [.ring (.pushReturned 10 (.ok ())), .ring (.pushReturned 20 (.ok ())),
          .ring (.pushReturned 30 (.error 30)),
          .ring (.popReturned (some 10)), .dropped 20] s ∧
      s.phase = .freed) ∧
    ∃ s : Lifetime ℕ (⟨2#8, by decide⟩ : Capacity 8),
      Accounted
        [.ring (.pushReturned 10 (.ok ())), .ring (.popReturned (some 10)),
          .ring (.pushReturned 20 (.ok ())), .dropped 20] s ∧
      s.phase = .freed :=
  ⟨⟨_, accounted_of_reaches (Machine.reaches_of_exec
      [.ring (.tryPush 10), .ring .producerStep, .ring .producerStep,
        .ring .producerStep, .ring (.tryPush 20), .ring .producerStep,
        .ring .producerStep, .ring .producerStep, .ring (.tryPush 30),
        .ring .producerStep, .ring .tryPop, .ring .consumerStep,
        .ring .consumerStep, .ring .consumerStep, .dropConsumer, .dropProducer,
        .drain, .drain] rfl) (by decide), rfl⟩,
    ⟨_, accounted_of_reaches (Machine.reaches_of_exec
      [.ring (.tryPush 10), .ring .producerStep, .ring .producerStep,
        .ring .producerStep, .ring .tryPop, .ring .consumerStep,
        .ring .consumerStep, .ring .consumerStep, .ring (.tryPush 20),
        .ring .producerStep, .ring .producerStep, .ring .producerStep,
        .dropProducer, .dropConsumer, .drain, .drain] rfl) (by decide), rfl⟩⟩

end TympanApo.Realtime.Ring
