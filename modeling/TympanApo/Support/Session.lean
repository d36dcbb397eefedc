import TympanApo.Support.Run

/-!
# Sessions over a started resource

The protocol of a resource that is started once and then goes through any
number of sessions: an acquisition with a payload, any number of uses, and a
release.  A refused acquisition leaves the resource ready.  Along every path
of the protocol releases pair off with the acquisitions before them.
-/

namespace TympanApo.Support.Session

variable {π : Type*}

/-- Operations of the protocol. -/
inductive Op (π : Type*)
  | start
  | acquire (payload : π)
  | refuse
  | use
  | release

/-- Where the resource is. -/
inductive Phase (π : Type*)
  | fresh
  | ready
  | held (payload : π)

/-- The legal operations of each phase. -/
inductive Step : Phase π → Op π → Phase π → Prop
  | start : Step .fresh .start .ready
  | acquire (payload : π) : Step .ready (.acquire payload) (.held payload)
  | refuse : Step .ready .refuse .ready
  | use (payload : π) : Step (.held payload) .use (.held payload)
  | release (payload : π) : Step (.held payload) .release .ready

/-! ## Counting operations -/

/-- Whether an operation is a start. -/
def Op.isStart : Op π → Bool
  | .start => true
  | _ => false

/-- Whether an operation is a release. -/
def Op.isRelease : Op π → Bool
  | .release => true
  | _ => false

/-- The payload an operation acquires. -/
def Op.payload? : Op π → Option π
  | .acquire payload => some payload
  | _ => none

/-- Number of starts. -/
def starts (ops : List (Op π)) : ℕ :=
  ops.countP Op.isStart

/-- The payloads acquired, in order. -/
def acquired (ops : List (Op π)) : List π :=
  ops.filterMap Op.payload?

/-- Number of releases. -/
def releases (ops : List (Op π)) : ℕ :=
  ops.countP Op.isRelease

theorem acquired_append (ops ops' : List (Op π)) :
    acquired (ops ++ ops') = acquired ops ++ acquired ops' :=
  List.filterMap_append

theorem starts_concat (ops : List (Op π)) (op : Op π) :
    starts (ops ++ [op]) = starts ops + if op.isStart then 1 else 0 := by
  simp [starts, List.countP_append, List.countP_singleton]

theorem acquired_concat (ops : List (Op π)) (op : Op π) :
    acquired (ops ++ [op]) = acquired ops ++ op.payload?.toList := by
  cases hpayload : op.payload? <;> simp [acquired, hpayload]

theorem releases_concat (ops : List (Op π)) (op : Op π) :
    releases (ops ++ [op]) = releases ops + if op.isRelease then 1 else 0 := by
  simp [releases, List.countP_append, List.countP_singleton]

/-- What the operations so far say about the phase reached. -/
def Phase.Explains (ops : List (Op π)) : Phase π → Prop
  | .fresh => starts ops = 0 ∧ acquired ops = [] ∧ releases ops = 0
  | .ready => starts ops = 1 ∧ (acquired ops).length = releases ops
  | .held payload =>
      starts ops = 1 ∧ (acquired ops).length = releases ops + 1 ∧
        (acquired ops).getLast? = some payload

/-- What the operations before an operation say about it. -/
def Allowed (ops : List (Op π)) : Op π → Prop
  | .start => starts ops = 0
  | .acquire _ => starts ops = 1 ∧ (acquired ops).length = releases ops
  | .refuse => starts ops = 1 ∧ (acquired ops).length = releases ops
  | .use => (acquired ops).length = releases ops + 1
  | .release => (acquired ops).length = releases ops + 1

theorem Step.explains {ops : List (Op π)} {phase phase' : Phase π}
    {op : Op π} (h : Step phase op phase') (hphase : phase.Explains ops) :
    phase'.Explains (ops ++ [op]) := by
  cases h with
  | start =>
      obtain ⟨hstarts, hacquired, hreleases⟩ := hphase
      simp [Phase.Explains, starts_concat, acquired_concat, releases_concat,
        hstarts, hacquired, hreleases, Op.isStart, Op.payload?, Op.isRelease]
  | acquire payload =>
      obtain ⟨hstarts, hlength⟩ := hphase
      simp [Phase.Explains, starts_concat, acquired_concat, releases_concat,
        hstarts, hlength, Op.isStart, Op.payload?, Op.isRelease]
  | refuse =>
      obtain ⟨hstarts, hlength⟩ := hphase
      simp [Phase.Explains, starts_concat, acquired_concat, releases_concat,
        hstarts, hlength, Op.isStart, Op.payload?, Op.isRelease]
  | use payload =>
      obtain ⟨hstarts, hlength, hlast⟩ := hphase
      simp [Phase.Explains, starts_concat, acquired_concat, releases_concat,
        hstarts, hlength, hlast, Op.isStart, Op.payload?, Op.isRelease]
  | release payload =>
      obtain ⟨hstarts, hlength, hlast⟩ := hphase
      simp [Phase.Explains, starts_concat, acquired_concat, releases_concat,
        hstarts, hlength, Op.isStart, Op.payload?, Op.isRelease]

theorem Step.allowed {ops : List (Op π)} {phase phase' : Phase π}
    {op : Op π} (h : Step phase op phase') (hphase : phase.Explains ops) :
    Allowed ops op := by
  cases h with
  | start => exact hphase.1
  | acquire payload => exact hphase
  | refuse => exact hphase
  | use payload => exact hphase.2.1
  | release payload => exact hphase.2.1

/-- Every path of the protocol explains the phase it reaches, and each of its
operations is allowed by those before it. -/
theorem explains_of_path {ops : List (Op π)} {phase : Phase π}
    (h : Path Step .fresh ops phase) :
    phase.Explains ops ∧ Justified Allowed ops := by
  induction h with
  | nil => exact ⟨⟨rfl, rfl, rfl⟩, justified_nil _⟩
  | snoc _ hstep ih =>
      exact ⟨hstep.explains ih.1, ih.2.concat (hstep.allowed ih.1)⟩

/-- A resource is started at most once. -/
theorem starts_le_one {ops : List (Op π)} {phase : Phase π}
    (h : Path Step .fresh ops phase) : starts ops ≤ 1 := by
  have hphase := (explains_of_path h).1
  cases phase with
  | fresh =>
      rw [hphase.1]
      exact Nat.zero_le 1
  | ready => exact Nat.le_of_eq hphase.1
  | held payload => exact Nat.le_of_eq hphase.1

end TympanApo.Support.Session
