import TympanApo.Support.BoundedQueue
import Mathlib.Logic.Function.Basic

/-!
# The single-producer single-consumer ring

A model of `realtime/ring.rs`.  Both handles are split into their atomic
steps: load the own index, load the other side's index, touch the slot, store
the own index.  Each side keeps the values it has loaded in a program counter
of its own, so a copy of the other side's index may be stale by the time the
slot is touched.  Indices are `usize`s of an arbitrary width `w` and wrap.
-/

namespace TympanApo.Realtime

open TympanApo.Support

/-- A capacity that the assertion at the head of `spsc` lets through. -/
structure Capacity (w : ℕ) where
  /-- Number of slots. -/
  val : BitVec w
  pos : 0 < val.toNat

namespace Ring

variable {w : ℕ} {α : Type*}

/-- `idx = index % capacity`. -/
def slot (c : Capacity w) (index : BitVec w) : Fin c.val.toNat :=
  ⟨(index % c.val).toNat, by
    rw [BitVec.toNat_umod]
    exact Nat.mod_lt _ c.pos⟩

/-- The memory both handles share.  A slot is `none` until its first write;
reading a value out of a slot leaves its bytes in place. -/
structure Shared (α : Type*) (c : Capacity w) where
  buf : Fin c.val.toNat → Option α
  head : BitVec w
  tail : BitVec w

/-- Where the producer is.  `pushAdmitted` is the point between the capacity
check and the slot write; after the write the value is kept only so that the
return can be reported. -/
inductive ProducerPc (w : ℕ) (α : Type*)
  | idle
  | pushLoadedTail (value : α) (tail : BitVec w)
  | pushAdmitted (value : α) (tail : BitVec w)
  | pushWritten (value : α) (tail : BitVec w)
  | isFullLoadedTail (tail : BitVec w)

/-- Where the consumer is.  `popAdmitted` is the point between the emptiness
check and the slot read. -/
inductive ConsumerPc (w : ℕ) (α : Type*)
  | idle
  | popLoadedHead (head : BitVec w)
  | popAdmitted (head : BitVec w)
  | popRead (head : BitVec w) (value : α)
  | isEmptyLoadedHead (head : BitVec w)

/-- The ring with both of its threads. -/
structure State (α : Type*) (c : Capacity w) where
  shared : Shared α c
  producer : ProducerPc w α
  consumer : ConsumerPc w α

/-- `spsc`: both handles idle over uninitialised slots. -/
def spsc (α : Type*) (c : Capacity w) : State α c where
  shared := { buf := fun _ => none, head := 0, tail := 0 }
  producer := .idle
  consumer := .idle

/-- A call a thread makes, or the next atomic step of the call it is in. -/
inductive Action (α : Type*)
  | tryPush (value : α)
  | isFull
  | producerStep
  | tryPop
  | isEmpty
  | consumerStep

/-- What a step makes known: the return of a call, with the argument of a
push, or the read of a slot that was never written. -/
inductive Event (α : Type*)
  | pushReturned (value : α) (result : Except α Unit)
  | isFullReturned (answer : Bool)
  | popReturned (result : Option α)
  | isEmptyReturned (answer : Bool)
  | uninitRead
  deriving DecidableEq

variable {c : Capacity w}

/-- The next atomic step of the producer's call. -/
def producerStep (s : State α c) : Option (State α c × List (Event α)) :=
  match s.producer with
  | .idle => none
  | .pushLoadedTail value tail =>
      -- `head` is loaded here; a full ring hands the value back at once.
      if tail - s.shared.head = c.val then
        some ({ s with producer := .idle }, [.pushReturned value (.error value)])
      else
        some ({ s with producer := .pushAdmitted value tail }, [])
  | .pushAdmitted value tail =>
      some ({ s with
        shared := { s.shared with
          buf := Function.update s.shared.buf (slot c tail) (some value) }
        producer := .pushWritten value tail }, [])
  | .pushWritten value tail =>
      some ({ s with
        shared := { s.shared with tail := tail + 1 }
        producer := .idle }, [.pushReturned value (.ok ())])
  | .isFullLoadedTail tail =>
      some ({ s with producer := .idle },
        [.isFullReturned (tail - s.shared.head == c.val)])

/-- The next atomic step of the consumer's call. -/
def consumerStep (s : State α c) : Option (State α c × List (Event α)) :=
  match s.consumer with
  | .idle => none
  | .popLoadedHead head =>
      -- `tail` is loaded here; an empty ring is reported at once.
      if head = s.shared.tail then
        some ({ s with consumer := .idle }, [.popReturned none])
      else
        some ({ s with consumer := .popAdmitted head }, [])
  | .popAdmitted head =>
      match s.shared.buf (slot c head) with
      | some value => some ({ s with consumer := .popRead head value }, [])
      | none => some (s, [.uninitRead])
  | .popRead head value =>
      some ({ s with
        shared := { s.shared with head := head + 1 }
        consumer := .idle }, [.popReturned (some value)])
  | .isEmptyLoadedHead head =>
      some ({ s with consumer := .idle },
        [.isEmptyReturned (head == s.shared.tail)])

/-- One step of either thread.  A call begins by loading the thread's own
index, which is its first atomic step. -/
def step (s : State α c) : Action α → Option (State α c × List (Event α))
  | .tryPush value =>
      match s.producer with
      | .idle =>
          some ({ s with producer := .pushLoadedTail value s.shared.tail }, [])
      | _ => none
  | .isFull =>
      match s.producer with
      | .idle => some ({ s with producer := .isFullLoadedTail s.shared.tail }, [])
      | _ => none
  | .producerStep => producerStep s
  | .tryPop =>
      match s.consumer with
      | .idle => some ({ s with consumer := .popLoadedHead s.shared.head }, [])
      | _ => none
  | .isEmpty =>
      match s.consumer with
      | .idle => some ({ s with consumer := .isEmptyLoadedHead s.shared.head }, [])
      | _ => none
  | .consumerStep => consumerStep s

/-- The ring as a machine: any interleaving of one producer and one consumer,
each making any sequence of calls. -/
def machine (α : Type*) (c : Capacity w) :
    Machine (State α c) (Action α) (Event α) where
  init := spsc α c
  step := step

/-! ## What a step can do -/

/-- The transitions of the ring, one constructor for each atomic step. -/
inductive Transition (s : State α c) : List (Event α) → State α c → Prop
  | pushLoadTail (value : α) (hpc : s.producer = .idle) :
      Transition s []
        { s with producer := .pushLoadedTail value s.shared.tail }
  | pushFull (value : α) (tail : BitVec w)
      (hpc : s.producer = .pushLoadedTail value tail)
      (hfull : tail - s.shared.head = c.val) :
      Transition s [.pushReturned value (.error value)]
        { s with producer := .idle }
  | pushAdmit (value : α) (tail : BitVec w)
      (hpc : s.producer = .pushLoadedTail value tail)
      (hroom : tail - s.shared.head ≠ c.val) :
      Transition s [] { s with producer := .pushAdmitted value tail }
  | pushWrite (value : α) (tail : BitVec w)
      (hpc : s.producer = .pushAdmitted value tail) :
      Transition s []
        { s with
          shared := { s.shared with
            buf := Function.update s.shared.buf (slot c tail) (some value) }
          producer := .pushWritten value tail }
  | pushPublish (value : α) (tail : BitVec w)
      (hpc : s.producer = .pushWritten value tail) :
      Transition s [.pushReturned value (.ok ())]
        { s with
          shared := { s.shared with tail := tail + 1 }
          producer := .idle }
  | isFullLoadTail (hpc : s.producer = .idle) :
      Transition s [] { s with producer := .isFullLoadedTail s.shared.tail }
  | isFullReturn (tail : BitVec w)
      (hpc : s.producer = .isFullLoadedTail tail) :
      Transition s [.isFullReturned (tail - s.shared.head == c.val)]
        { s with producer := .idle }
  | popLoadHead (hpc : s.consumer = .idle) :
      Transition s [] { s with consumer := .popLoadedHead s.shared.head }
  | popEmpty (head : BitVec w)
      (hpc : s.consumer = .popLoadedHead head)
      (hempty : head = s.shared.tail) :
      Transition s [.popReturned none] { s with consumer := .idle }
  | popAdmit (head : BitVec w)
      (hpc : s.consumer = .popLoadedHead head)
      (hitem : head ≠ s.shared.tail) :
      Transition s [] { s with consumer := .popAdmitted head }
  | popTake (head : BitVec w) (value : α)
      (hpc : s.consumer = .popAdmitted head)
      (hslot : s.shared.buf (slot c head) = some value) :
      Transition s [] { s with consumer := .popRead head value }
  | popUninit (head : BitVec w)
      (hpc : s.consumer = .popAdmitted head)
      (hslot : s.shared.buf (slot c head) = none) :
      Transition s [.uninitRead] s
  | popPublish (head : BitVec w) (value : α)
      (hpc : s.consumer = .popRead head value) :
      Transition s [.popReturned (some value)]
        { s with
          shared := { s.shared with head := head + 1 }
          consumer := .idle }
  | isEmptyLoadHead (hpc : s.consumer = .idle) :
      Transition s [] { s with consumer := .isEmptyLoadedHead s.shared.head }
  | isEmptyReturn (head : BitVec w)
      (hpc : s.consumer = .isEmptyLoadedHead head) :
      Transition s [.isEmptyReturned (head == s.shared.tail)]
        { s with consumer := .idle }

theorem producerStep_transition {s s' : State α c} {es : List (Event α)}
    (h : producerStep s = some (s', es)) : Transition s es s' := by
  unfold producerStep at h
  split at h
  · cases h
  next value tail hpc =>
    split at h <;> cases h
    next hfull => exact .pushFull value tail hpc hfull
    next hroom => exact .pushAdmit value tail hpc hroom
  next value tail hpc =>
    cases h
    exact .pushWrite value tail hpc
  next value tail hpc =>
    cases h
    exact .pushPublish value tail hpc
  next tail hpc =>
    cases h
    exact .isFullReturn tail hpc

theorem consumerStep_transition {s s' : State α c} {es : List (Event α)}
    (h : consumerStep s = some (s', es)) : Transition s es s' := by
  unfold consumerStep at h
  split at h
  · cases h
  next head hpc =>
    split at h <;> cases h
    next hempty => exact .popEmpty head hpc hempty
    next hitem => exact .popAdmit head hpc hitem
  next head hpc =>
    split at h <;> cases h
    next value hslot => exact .popTake head value hpc hslot
    next hslot => exact .popUninit head hpc hslot
  next head value hpc =>
    cases h
    exact .popPublish head value hpc
  next head hpc =>
    cases h
    exact .isEmptyReturn head hpc

/-- Every step of the ring is one of the transitions. -/
theorem step_transition {s s' : State α c} {a : Action α}
    {es : List (Event α)} (h : step s a = some (s', es)) :
    Transition s es s' := by
  cases a with
  | tryPush value =>
      simp only [step] at h
      split at h <;> cases h
      next hpc => exact .pushLoadTail value hpc
  | isFull =>
      simp only [step] at h
      split at h <;> cases h
      next hpc => exact .isFullLoadTail hpc
  | producerStep => exact producerStep_transition h
  | tryPop =>
      simp only [step] at h
      split at h <;> cases h
      next hpc => exact .popLoadHead hpc
  | isEmpty =>
      simp only [step] at h
      split at h <;> cases h
      next hpc => exact .isEmptyLoadHead hpc
  | consumerStep => exact consumerStep_transition h

/-! ## Histories -/

/-- The values of the successful pushes, in order. -/
def pushed (H : List (Event α)) : List α :=
  H.filterMap fun
    | .pushReturned value (.ok ()) => some value
    | _ => none

/-- The values the pops returned, in order. -/
def popped (H : List (Event α)) : List α :=
  H.filterMap fun
    | .popReturned result => result
    | _ => none

/-- The items pushed and not yet popped. -/
def contents (H : List (Event α)) : List α :=
  (pushed H).drop (popped H).length

/-- The queue operation an event stands for. -/
def queueOp : Event α → Option (BoundedQueue.Op α)
  | .pushReturned value (.ok ()) => some (.enqueue value)
  | .pushReturned _ (.error _) => some .full
  | .popReturned (some value) => some (.dequeue value)
  | .popReturned none => some .empty
  | _ => none

end Ring

end TympanApo.Realtime
