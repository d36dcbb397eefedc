import TympanApo.Support.Run
import Mathlib.Order.Nat

/-!
# Wait-freedom

A thread of a machine is wait-free if a call it is in can always go on, and
returns after a bounded number of the thread's own steps whatever the other
threads do meanwhile, or fail to do.  It is enough to find a measure of the
call that every own step makes smaller and no other step makes larger.
-/

namespace TympanApo.Support

variable {σ ι ε : Type*}

/-- One thread of a machine: the own steps that the call it is in may still
take, if it is in one; which actions are steps of such a call; and which
events are returns. -/
structure Thread (σ ι ε : Type*) where
  left : σ → Option ℕ
  own : ι → Bool
  returns : ε → Bool

namespace Thread

variable {M : Machine σ ι ε} {t : Thread σ ι ε} {bound : ℕ}

/-- From every state a run reaches in which the thread is in a call, it can go
on, and in every execution with `bound` own steps from there the call
returns. -/
structure WaitFree (M : Machine σ ι ε) (t : Thread σ ι ε) (bound : ℕ) :
    Prop where
  enabled : ∀ {H : List ε} {s : σ}, M.Reaches H s → (t.left s).isSome →
    ∃ a, t.own a = true ∧ (M.step s a).isSome
  returned : ∀ {H K : List ε} {s s' : σ} {as : List ι}, M.Reaches H s →
    (t.left s).isSome → M.execFrom as H s = some (H ++ K, s') →
      bound ≤ as.countP t.own → ∃ e ∈ K, t.returns e = true

/-- A measure of the calls of a thread. -/
structure Measured (M : Machine σ ι ε) (t : Thread σ ι ε) (bound : ℕ) :
    Prop where
  enabled : ∀ {H : List ε} {s : σ}, M.Reaches H s → (t.left s).isSome →
    ∃ a, t.own a = true ∧ (M.step s a).isSome
  bounded : ∀ {s : σ} {k : ℕ}, t.left s = some k → 0 < k ∧ k ≤ bound
  advances : ∀ {H es : List ε} {s s' : σ} {a : ι} {k : ℕ}, M.Reaches H s →
    t.left s = some k → M.step s a = some (s', es) →
      (∃ e ∈ es, t.returns e = true) ∨
        ∃ k', t.left s' = some k' ∧ k' + (if t.own a then 1 else 0) ≤ k

theorem Measured.returned (h : Measured M t bound) {H K : List ε} {s s' : σ}
    {as : List ι} {k : ℕ} (hreach : M.Reaches H s) (hleft : t.left s = some k)
    (hexec : M.execFrom as H s = some (H ++ K, s'))
    (hsteps : k ≤ as.countP t.own) : ∃ e ∈ K, t.returns e = true := by
  -- The measure bounds the own steps of the executions without a return.
  induction as generalizing H K s k with
  | nil =>
      have hpos := (h.bounded hleft).1
      rw [List.countP_nil] at hsteps
      exact absurd hpos (Nat.not_lt.mpr hsteps)
  | cons a as ih =>
      rw [Machine.execFrom] at hexec
      split at hexec
      · cases hexec
      next s₁ es hstep =>
        have hreach₁ := hreach.next hstep
        obtain ⟨L, hL⟩ := Machine.execFrom_history hexec
        have hK : K = es ++ L :=
          List.append_cancel_left (hL.trans (List.append_assoc H es L))
        rw [hK]
        rw [hL] at hexec
        rcases h.advances hreach hleft hstep with ⟨e, he, hreturns⟩ | hadvance
        · exact ⟨e, List.mem_append_left _ he, hreturns⟩
        · obtain ⟨k', hleft', hk'⟩ := hadvance
          rw [List.countP_cons] at hsteps
          have hsteps' : k' ≤ as.countP t.own := by omega
          obtain ⟨e, he, hreturns⟩ := ih hreach₁ hleft' hexec hsteps'
          exact ⟨e, List.mem_append_right _ he, hreturns⟩

/-- A measured thread is wait-free. -/
theorem Measured.waitFree (h : Measured M t bound) : WaitFree M t bound where
  enabled := h.enabled
  returned hreach hbusy hexec hsteps := by
    obtain ⟨k, hleft⟩ := Option.isSome_iff_exists.mp hbusy
    exact h.returned hreach hleft hexec ((h.bounded hleft).2.trans hsteps)

end Thread

end TympanApo.Support
