import Mathlib.Algebra.BigOperators.Group.Finset.Piecewise
import Mathlib.Algebra.Group.Nat.Defs
import Mathlib.Algebra.Order.BigOperators.Group.Finset
import Mathlib.Data.Fintype.Basic
import TympanApo.Realtime.Refcount
import TympanApo.Support.Run

/-!
# Threads sharing a reference counter

A finite set of threads shares one `Refcount`, and each thread runs its own
sequence of operations, never giving up more references than it took.  The
discipline is local; summed over the threads it bounds the counter at every
point of every interleaving.
-/

namespace TympanApo.Realtime.RefcountRuns

open TympanApo.Support

variable {τ : Type*}

/-! ## Programs -/

inductive Op
  | addRef
  | release
  deriving DecidableEq, Repr

/-- Releases never outnumber additions. -/
def Disciplined (ops : List Op) : Prop :=
  ∀ ops', ops' <+: ops → ops'.count .release ≤ ops'.count .addRef

/-- The atomic access of an operation: the new count and the counter. -/
def Op.access (op : Op) (counter : Refcount) : UInt32 × Refcount :=
  match op with
  | .addRef => counter.addRef
  | .release => counter.release

/-- The debug assertion of an operation. -/
def Op.Asserts (op : Op) (counter : Refcount) : Prop :=
  match op with
  | .addRef => counter.AddRefAsserts
  | .release => counter.ReleaseAsserts

/-! ## Runs -/

/-- A call: who made it, the counter it found and the count it returned. -/
structure Call (τ : Type*) where
  thread : τ
  op : Op
  before : Refcount
  returned : UInt32

/-- The counter, and what each thread has still to do. -/
structure Shared (τ : Type*) where
  counter : Refcount
  remaining : τ → List Op

/-- A thread makes its next call. -/
def step [DecidableEq τ] (s : Shared τ) (t : τ) :
    Option (Shared τ × List (Call τ)) :=
  match s.remaining t with
  | [] => none
  | op :: ops =>
      let (returned, counter) := op.access s.counter
      some ({ counter, remaining := Function.update s.remaining t ops },
        [{ thread := t, op, before := s.counter, returned }])

/-- Threads with their programs, sharing a counter that starts at zero. -/
def machine [DecidableEq τ] (program : τ → List Op) :
    Machine (Shared τ) τ (Call τ) where
  init := { counter := Refcount.new, remaining := program }
  step := step

/-! ## Live references -/

/-- Number of calls of an operation. -/
def calls (op : Op) (H : List (Call τ)) : ℕ :=
  (H.map Call.op).count op

/-- References that were taken and not given up. -/
def live (H : List (Call τ)) : ℕ :=
  calls .addRef H - calls .release H

/-- The calls of one thread, in order. -/
def opsOf [DecidableEq τ] (t : τ) (H : List (Call τ)) : List Op :=
  (H.filter fun e => e.thread = t).map Call.op

theorem calls_append (op : Op) (H H' : List (Call τ)) :
    calls op (H ++ H') = calls op H + calls op H' := by
  simp [calls]

theorem calls_singleton (op : Op) (e : Call τ) :
    calls op [e] = if e.op = op then 1 else 0 := by
  simp [calls, List.count_singleton]

/-- The calls of all threads together. -/
theorem calls_eq_sum [Fintype τ] [DecidableEq τ] (op : Op)
    (H : List (Call τ)) : calls op H = ∑ t, (opsOf t H).count op := by
  induction H with
  | nil => simp [calls, opsOf]
  | cons e H ih =>
      have hthread : ∀ t, (opsOf t (e :: H)).count op =
          (if e.thread = t then calls op [e] else 0) +
            (opsOf t H).count op := by
        intro t
        by_cases ht : e.thread = t
        · simp [opsOf, ht, calls, List.count_cons, Nat.add_comm]
        · simp [opsOf, ht]
      rw [← List.singleton_append, calls_append, ih]
      simp only [List.singleton_append, hthread, Finset.sum_add_distrib,
        Finset.sum_ite_eq, Finset.mem_univ, if_true]

/-! ## The balance of the threads -/

section Balance

variable [DecidableEq τ] {program : τ → List Op} {H : List (Call τ)}
variable {s : Shared τ}

/-- One call of a thread. -/
theorem step_eq_some {s' : Shared τ} {t : τ} {es : List (Call τ)}
    (h : step s t = some (s', es)) :
    ∃ op ops, s.remaining t = op :: ops ∧
      s' = { counter := (op.access s.counter).2
             remaining := Function.update s.remaining t ops } ∧
      es = [{ thread := t, op, before := s.counter
              returned := (op.access s.counter).1 }] := by
  rw [step] at h
  split at h
  · cases h
  next op ops hremaining =>
    cases h
    exact ⟨op, ops, hremaining, rfl, rfl⟩

/-- What a thread has done and has still to do is its program. -/
theorem opsOf_append_remaining (h : (machine program).Reaches H s) (t : τ) :
    opsOf t H ++ s.remaining t = program t := by
  refine h.invariant (I := fun H s => ∀ t, opsOf t H ++ s.remaining t =
    program t) (fun t => rfl) ?_ t
  intro H es s s' t hinv _ hstep t'
  obtain ⟨op, ops, hremaining, rfl, rfl⟩ := step_eq_some hstep
  rw [← hinv t']
  by_cases ht : t' = t
  · subst ht
    simp [opsOf, hremaining]
  · simp [opsOf, Function.update_of_ne ht, Ne.symm ht]

/-- The discipline of the threads, summed. -/
theorem releases_le_addRefs [Fintype τ]
    (hdisciplined : ∀ t, Disciplined (program t))
    (h : (machine program).Reaches H s) :
    calls .release H ≤ calls .addRef H := by
  rw [calls_eq_sum, calls_eq_sum]
  refine Finset.sum_le_sum fun t _ => ?_
  refine hdisciplined t (opsOf t H) ?_
  rw [← opsOf_append_remaining h t]
  exact List.prefix_append _ _

end Balance

/-! ## The counter counts the live references -/

/-- A call that trips no assertion and returns the exact count. -/
structure Exact (H : List (Call τ)) (e : Call τ) : Prop where
  asserts : e.op.Asserts e.before
  before_eq : e.before.count.toNat = live H
  returned_eq : e.returned.toNat = live (H ++ [e])

theorem live_addRef {H : List (Call τ)} {e : Call τ}
    (hbalance : calls .release H ≤ calls .addRef H) (hop : e.op = .addRef) :
    live (H ++ [e]) = live H + 1 := by
  simp only [live, calls_append, calls_singleton, hop, if_true, reduceCtorEq,
    if_false]
  omega

theorem live_release {H : List (Call τ)} {e : Call τ} (hop : e.op = .release) :
    live (H ++ [e]) = live H - 1 := by
  simp only [live, calls_append, calls_singleton, hop, if_true, reduceCtorEq,
    if_false]
  omega

/-- One call on a counter that is right. -/
theorem exact_access {H : List (Call τ)} {t : τ} {op : Op}
    {counter : Refcount} (hcount : counter.count.toNat = live H)
    (hbalance : calls .release H ≤ calls .addRef H)
    (hbalance' : calls .release (H ++
        [⟨t, op, counter, (op.access counter).1⟩]) ≤
      calls .addRef (H ++ [⟨t, op, counter, (op.access counter).1⟩]))
    (hlive : live (H ++ [⟨t, op, counter, (op.access counter).1⟩]) < 2 ^ 32) :
    Exact H ⟨t, op, counter, (op.access counter).1⟩ := by
  cases op with
  | addRef =>
      rw [live_addRef hbalance rfl, ← hcount] at hlive
      refine ⟨?_, hcount, ?_⟩
      · rw [Op.Asserts, Refcount.AddRefAsserts, UInt32.lt_iff_toNat_lt]
        exact Nat.lt_sub_of_add_lt hlive
      · rw [live_addRef hbalance rfl, ← hcount]
        simp only [Op.access, Refcount.addRef, UInt32.toNat_add]
        exact Nat.mod_eq_of_lt hlive
  | release =>
      have hpos : 0 < counter.count.toNat := by
        simp only [calls_append, calls_singleton, if_true, reduceCtorEq,
          if_false] at hbalance'
        rw [hcount, live]
        omega
      refine ⟨?_, hcount, ?_⟩
      · rw [Op.Asserts, Refcount.ReleaseAsserts, UInt32.lt_iff_toNat_lt]
        exact hpos
      · rw [live_release rfl, ← hcount]
        exact UInt32.toNat_sub_of_le _ _ (UInt32.le_iff_toNat_le.mpr hpos)

/-- A release that is exact ends the last reference when it returns zero. -/
theorem Exact.release_eq_zero {H : List (Call τ)} {e : Call τ}
    (h : Exact H e) (hop : e.op = .release) : e.returned = 0 ↔ live H = 1 := by
  have hpos : 0 < live H := by
    have hasserts := h.asserts
    rw [hop, Op.Asserts, Refcount.ReleaseAsserts,
      UInt32.lt_iff_toNat_lt] at hasserts
    rw [← h.before_eq]
    exact hasserts
  have hreturned := h.returned_eq
  rw [live_release hop] at hreturned
  rw [← UInt32.toNat_inj, hreturned, UInt32.toNat_zero]
  omega

section Runs

variable [Fintype τ] [DecidableEq τ] {program : τ → List Op}
variable {H : List (Call τ)} {s : Shared τ}

/-- While fewer than `2 ^ 32` references were ever live, every call was exact,
and the counter counts the live references. -/
theorem exact_of_reaches (hdisciplined : ∀ t, Disciplined (program t))
    (h : (machine program).Reaches H s)
    (hlive : ∀ H', H' <+: H → live H' < 2 ^ 32) :
    s.counter.count.toNat = live H ∧ Justified Exact H := by
  refine h.invariant_of_run (I := fun H s =>
    (∀ H', H' <+: H → live H' < 2 ^ 32) →
      s.counter.count.toNat = live H ∧ Justified Exact H)
    (fun _ => ⟨rfl, justified_nil _⟩) ?_ hlive
  intro H es s s' t hrun hinv _ hstep hlive
  obtain ⟨hcount, hjustified⟩ := hinv fun H' hH' =>
    hlive H' (hH'.trans (List.prefix_append H es))
  have hbalance := releases_le_addRefs hdisciplined hrun
  have hbalance' := releases_le_addRefs hdisciplined
    (Machine.Reaches.next hrun hstep)
  have hlive' := hlive _ List.prefix_rfl
  obtain ⟨op, ops, -, rfl, rfl⟩ := step_eq_some hstep
  have hexact := exact_access hcount hbalance hbalance' hlive'
  refine ⟨?_, hjustified.concat hexact⟩
  rw [← hexact.returned_eq]
  cases op <;> rfl

/-- What a shared counter guarantees after a run. -/
structure CountsLive (program : τ → List Op) (H : List (Call τ)) (s : Shared τ) :
    Prop where
  /-- No assertion trips and no call wraps: each finds and returns the number
  of live references. -/
  exact_calls : Justified Exact H
  /-- A release returns zero exactly when it ends the last live reference. -/
  last : ∀ H₁ e H₂, H = H₁ ++ e :: H₂ → e.op = .release →
    (e.returned = 0 ↔ live H₁ = 1)
  /-- Between two releases that return zero a reference was taken. -/
  separate : ∀ H₁ e mid e' H₂, H = H₁ ++ e :: (mid ++ e' :: H₂) →
    e.op = .release → e.returned = 0 → e'.op = .release → e'.returned = 0 →
      ∃ a ∈ mid, a.op = .addRef
  balanced : calls .release H ≤ calls .addRef H
  count_eq : s.counter.count.toNat = calls .addRef H - calls .release H
  /-- When all threads are through, the count is that of their programs. -/
  final : (∀ t, s.remaining t = []) → s.counter.count.toNat =
    ∑ t, (program t).count .addRef - ∑ t, (program t).count .release

/-- For every finite set of disciplined threads and every interleaving in
which fewer than `2 ^ 32` references are live at once, the counter is exact. -/
theorem countsLive_of_reaches (hdisciplined : ∀ t, Disciplined (program t))
    (h : (machine program).Reaches H s)
    (hlive : ∀ H', H' <+: H → live H' < 2 ^ 32) : CountsLive program H s := by
  obtain ⟨hcount, hexact⟩ := exact_of_reaches hdisciplined h hlive
  have hlast : ∀ H₁ e H₂, H = H₁ ++ e :: H₂ → e.op = .release →
      (e.returned = 0 ↔ live H₁ = 1) := fun H₁ e H₂ hH hop =>
    (hexact H₁ e H₂ hH).release_eq_zero hop
  refine ⟨hexact, hlast, ?_, releases_le_addRefs hdisciplined h, hcount, ?_⟩
  · intro H₁ e mid e' H₂ hH hop hzero hop' hzero'
    have hone : live H₁ = 1 := (hlast H₁ e _ hH hop).mp hzero
    have hH' : H = (H₁ ++ e :: mid) ++ e' :: H₂ := by
      rw [hH, List.append_assoc, List.cons_append]
    have hone' : live (H₁ ++ e :: mid) = 1 := (hlast _ e' H₂ hH' hop').mp hzero'
    by_contra hnone
    have hmid : calls .addRef mid = 0 := by
      rw [calls, List.count_eq_zero]
      intro hmem
      obtain ⟨a, ha, hadd⟩ := List.mem_map.mp hmem
      exact hnone ⟨a, ha, hadd⟩
    rw [List.append_cons] at hone'
    simp only [live, calls_append, calls_singleton, hop, hmid, if_true,
      reduceCtorEq, if_false] at hone hone'
    omega
  · intro hdone
    have hops : ∀ t, opsOf t H = program t := by
      intro t
      have happend := opsOf_append_remaining h t
      rwa [hdone t, List.append_nil] at happend
    rw [hcount, live, calls_eq_sum, calls_eq_sum]
    simp only [hops]

end Runs

/-- Two threads take and give up a reference, one inside the other. -/
theorem countsLive_two_threads :
    ∃ H s, (machine fun _ : Fin 2 => [Op.addRef, Op.release]).Reaches H s ∧
      H.length = 4 ∧ CountsLive (fun _ : Fin 2 => [Op.addRef, Op.release]) H s := by
  have hdisciplined : ∀ _ : Fin 2, Disciplined [Op.addRef, Op.release] := by
    intro _ ops hops
    exact (by decide : ∀ ops ∈ [Op.addRef, Op.release].inits,
      ops.count .release ≤ ops.count .addRef) ops
      ((List.mem_inits _ _).mpr hops)
  have hreach : (machine fun _ : Fin 2 => [Op.addRef, Op.release]).Reaches _ _ :=
    Machine.reaches_of_exec [0, 1, 1, 0] rfl
  refine ⟨_, _, hreach, rfl, countsLive_of_reaches hdisciplined hreach ?_⟩
  intro H hH
  have hlength : (H.map Call.op).length ≤ 4 := by
    rw [List.length_map]
    exact hH.length_le
  have hlive : live H ≤ (H.map Call.op).length :=
    (Nat.sub_le _ _).trans List.count_le_length
  exact (hlive.trans hlength).trans_lt (by decide)

end TympanApo.Realtime.RefcountRuns
