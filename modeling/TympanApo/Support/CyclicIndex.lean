import Mathlib.Data.Nat.ModEq

/-!
# Wrapping counters reduced to slots

A counter that wraps at `M` is reduced modulo a number of slots `c ≤ M`.
Counters less than `c` apart share a slot in one case only: the counter wraps
between them and they are `M % c` apart.  When `c` divides `M` there is no such
pair.
-/

namespace TympanApo.Support

variable {M c j k t d : ℕ}

/-- The slot of a counter. -/
def cyclicSlot (M c i : ℕ) : ℕ :=
  i % M % c

theorem sub_mod_of_le (hd : d ≤ t % M) : (t - d) % M = t % M - d := by
  have hle : t % M ≤ t := Nat.mod_le t M
  have hsplit : t - d = t % M - d + M * (t / M) := by
    have hdiv := Nat.mod_add_div t M
    omega
  rw [hsplit, Nat.add_mul_mod_self_left]
  rcases Nat.eq_zero_or_pos M with rfl | hM
  · exact Nat.mod_zero _
  · have hlt := Nat.mod_lt t hM
    exact Nat.mod_eq_of_lt (by omega)

/-- Going back past a wrap. -/
theorem sub_mod_of_lt (hd : t % M < d) (hdt : d ≤ t) (hdM : d ≤ M) :
    (t - d) % M = t % M + M - d := by
  obtain ⟨q, hq⟩ : ∃ q, t / M = q + 1 := by
    refine Nat.exists_eq_succ_of_ne_zero ?_
    intro hzero
    have hdiv := Nat.mod_add_div t M
    rw [hzero] at hdiv
    omega
  have hsplit : t - d = t % M + M - d + M * q := by
    have hdiv := Nat.mod_add_div t M
    rw [hq, Nat.mul_add, Nat.mul_one] at hdiv
    omega
  rw [hsplit, Nat.add_mul_mod_self_left]
  exact Nat.mod_eq_of_lt (by omega)

theorem cyclicSlot_eq_iff (hjk : j < k) (hclose : k < j + c) (hc : c ≤ M) :
    cyclicSlot M c j = cyclicSlot M c k ↔ k % M < j % M ∧ k - j = M % c := by
  have hd : k - (k - j) = j := by omega
  have hdc : (k - j) % c = k - j := Nat.mod_eq_of_lt (by omega)
  unfold cyclicSlot
  by_cases hwrap : k % M < k - j
  · have hj := sub_mod_of_lt hwrap (by omega) (by omega)
    rw [hd] at hj
    have hsplit : j % M = k % M + (M - (k - j)) := by omega
    have hlt : k % M < j % M := by omega
    have hshare : k % M % c = j % M % c ↔ c ∣ M - (k - j) := by
      rw [hsplit]
      have hiff := Nat.modEq_iff_dvd' (n := c)
        (Nat.le_add_right (k % M) (M - (k - j)))
      rwa [Nat.add_sub_cancel_left] at hiff
    have hdist : k - j = M % c ↔ c ∣ M - (k - j) := by
      rw [← Nat.modEq_iff_dvd' (by omega), Nat.ModEq, hdc]
    rw [eq_comm, hshare, hdist]
    exact ⟨fun h => ⟨hlt, h⟩, And.right⟩
  · have hj := sub_mod_of_le (Nat.not_lt.mp hwrap)
    rw [hd] at hj
    constructor
    · intro hshare
      have hzero := Nat.sub_mod_eq_zero_of_mod_eq hshare.symm
      have hdiff : k % M - j % M = k - j := by omega
      rw [hdiff, hdc] at hzero
      omega
    · rintro ⟨hlt, -⟩
      omega

/-! ## Windows of counters -/

/-- The counters from `h` up to `t` have slots of their own. -/
def DistinctWindow (M c h t : ℕ) : Prop :=
  ∀ j k, h ≤ j → j < k → k < t → cyclicSlot M c j ≠ cyclicSlot M c k

variable {h : ℕ}

/-- A window less than a lap long has not wrapped if its ends are in order. -/
theorem mod_le_mod_iff (hht : h ≤ t) (hlap : t - h < M) :
    h % M ≤ t % M ↔ t - h ≤ t % M := by
  have hh : t - (t - h) = h := by omega
  constructor
  · intro hle
    by_contra hlt
    have hwrap := sub_mod_of_lt (Nat.not_le.mp hlt) (by omega) (by omega)
    rw [hh] at hwrap
    omega
  · intro hle
    have hback := sub_mod_of_le hle
    rw [hh] at hback
    omega

/-- The next counter after a distinct window has a slot outside it if and only
if the slots divide the counter range, the window has not wrapped, or it is
shorter than the remainder. -/
theorem fresh_slot_iff (hht : h ≤ t) (hroom : t < h + c) (hc : c ≤ M)
    (hdistinct : DistinctWindow M c h t) :
    (∀ j, h ≤ j → j < t → cyclicSlot M c j ≠ cyclicSlot M c t) ↔
      M % c = 0 ∨ h % M ≤ t % M ∨ t - h < M % c := by
  have hinOrder := mod_le_mod_iff (M := M) hht (by omega)
  constructor
  · intro hfresh
    by_contra hcontra
    simp only [not_or, Nat.not_le, Nat.not_lt] at hcontra
    obtain ⟨hrem, hwrap, hlong⟩ := hcontra
    have hahead : t % M < t - h := by
      by_contra hle
      exact absurd (hinOrder.mpr (Nat.not_lt.mp hle)) (Nat.not_le.mpr hwrap)
    have hremc : M % c < c := Nat.mod_lt M (by omega)
    by_cases hpast : t % M < M % c
    · -- The counter that many steps back lies before the wrap.
      have hback := sub_mod_of_lt (d := M % c) hpast (by omega) (by omega)
      refine hfresh (t - M % c) (by omega) (by omega) ?_
      exact (cyclicSlot_eq_iff (by omega) (by omega) hc).mpr
        ⟨by omega, by omega⟩
    · -- Two older counters on either side of the wrap already share a slot.
      have hlast := sub_mod_of_lt (d := t % M + 1) (M := M) (t := t)
        (by omega) (by omega) (by omega)
      have hfirst := sub_mod_of_le (d := t % M + 1 - M % c) (M := M) (t := t)
        (by omega)
      refine hdistinct (t - (t % M + 1)) (t - (t % M + 1 - M % c)) (by omega)
        (by omega) (by omega) ?_
      exact (cyclicSlot_eq_iff (by omega) (by omega) hc).mpr
        ⟨by omega, by omega⟩
  · intro hfits j hhj hjt hshare
    obtain ⟨hlt, hdist⟩ :=
      (cyclicSlot_eq_iff hjt (by omega) hc).mp hshare
    rcases hfits with hdvd | horder | hshort
    · omega
    · have hback := sub_mod_of_le (d := t - j) (M := M) (t := t)
        (by have := hinOrder.mp horder; omega)
      rw [show t - (t - j) = j by omega] at hback
      omega
    · omega

/-- A fresh slot extends a distinct window. -/
theorem DistinctWindow.succ (hdistinct : DistinctWindow M c h t)
    (hfresh : ∀ j, h ≤ j → j < t → cyclicSlot M c j ≠ cyclicSlot M c t) :
    DistinctWindow M c h (t + 1) := by
  intro j k hhj hjk hkt
  by_cases hk : k = t
  · rw [hk]
    exact hfresh j hhj (by omega)
  · exact hdistinct j k hhj hjk (by omega)

theorem DistinctWindow.advance {h' : ℕ} (hdistinct : DistinctWindow M c h t)
    (hle : h ≤ h') : DistinctWindow M c h' t := by
  intro j k hhj
  exact hdistinct j k (by omega)

end TympanApo.Support
