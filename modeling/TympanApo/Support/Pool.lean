import Mathlib.Data.List.Basic
import Mathlib.Logic.Function.Basic

/-!
# Pools of reference-counted objects

Every object ever allocated keeps its place in the pool, together with the
number of references to it; an object is alive while that number is positive,
and its last release ends its life.  The number of live objects changes by one
at an allocation and at a last release, and at nothing else.
-/

namespace TympanApo.Support

variable {α : Type*}

/-- An object and the number of references to it. -/
structure Counted (α : Type*) where
  value : α
  refs : ℕ

/-- All objects allocated so far; an object is named by its place. -/
abbrev Pool (α : Type*) := List (Counted α)

namespace Pool

/-- The live object at a place. -/
def get? (p : Pool α) (i : ℕ) : Option α :=
  match p[i]? with
  | some ⟨value, _ + 1⟩ => some value
  | _ => none

/-- The object at a place is down to its last reference. -/
def isLast (p : Pool α) (i : ℕ) : Bool :=
  match p[i]? with
  | some ⟨_, 1⟩ => true
  | _ => false

/-- All objects ever allocated, alive or not. -/
def values (p : Pool α) : List α :=
  p.map Counted.value

/-- Number of live objects. -/
def live (p : Pool α) : ℕ :=
  p.countP fun c => c.refs ≠ 0

/-- Allocate an object with one reference; its place is the old length. -/
def alloc (p : Pool α) (a : α) : Pool α :=
  p ++ [⟨a, 1⟩]

/-- Take one more reference to an object. -/
def addRef (p : Pool α) (i : ℕ) : Pool α :=
  p.modify i fun c => { c with refs := c.refs + 1 }

/-- Give one reference up. -/
def release (p : Pool α) (i : ℕ) : Pool α :=
  p.modify i fun c => { c with refs := c.refs - 1 }

/-- Change an object in place. -/
def update (p : Pool α) (i : ℕ) (f : α → α) : Pool α :=
  p.modify i fun c => { c with value := f c.value }

theorem get?_eq_some_iff {p : Pool α} {i : ℕ} {a : α} :
    p.get? i = some a ↔ ∃ n, p[i]? = some ⟨a, n + 1⟩ := by
  unfold get?
  split
  next value n h => simp [h]
  next h =>
    constructor
    · intro hnone
      cases hnone
    · rintro ⟨n, hn⟩
      exact absurd hn (h a n)

/-! ## Allocation -/

theorem get?_alloc_length (p : Pool α) (a : α) :
    (p.alloc a).get? p.length = some a := by
  simp [get?, alloc]

theorem live_alloc (p : Pool α) (a : α) : (p.alloc a).live = p.live + 1 := by
  simp [live, alloc, List.countP_append]

/-! ## References -/

theorem countP_modify {β : Type*} (q : β → Bool) (f : β → β) {l : List β}
    {i : ℕ} {b : β} (h : l[i]? = some b) :
    (l.modify i f).countP q + (if q b then 1 else 0) =
      l.countP q + if q (f b) then 1 else 0 := by
  induction l generalizing i with
  | nil => simp at h
  | cons c l ih =>
      cases i with
      | zero =>
          obtain rfl : c = b := by simpa using h
          simp only [List.modify_zero_cons, List.countP_cons]
          omega
      | succ i =>
          have hrest := ih (by simpa using h)
          simp only [List.modify_succ_cons, List.countP_cons]
          omega

theorem live_addRef {p : Pool α} {i : ℕ} {a : α} (h : p.get? i = some a) :
    (p.addRef i).live = p.live := by
  obtain ⟨n, hn⟩ := get?_eq_some_iff.mp h
  simpa [live, addRef] using countP_modify (fun c : Counted α => c.refs ≠ 0)
    (fun c => { c with refs := c.refs + 1 }) hn

theorem live_pos {p : Pool α} {i : ℕ} {a : α} (h : p.get? i = some a) :
    0 < p.live := by
  obtain ⟨n, hn⟩ := get?_eq_some_iff.mp h
  rw [live, List.countP_pos_iff]
  exact ⟨_, List.mem_of_getElem? hn, by simp⟩

/-- The last release ends a life. -/
theorem live_release_of_last {p : Pool α} {i : ℕ} (h : p.isLast i = true) :
    (p.release i).live + 1 = p.live := by
  unfold isLast at h
  split at h
  next value hvalue =>
    simpa [live, release] using
      countP_modify (fun c : Counted α => c.refs ≠ 0)
        (fun c => { c with refs := c.refs - 1 }) hvalue
  next => cases h

theorem live_release_of_not_last {p : Pool α} {i : ℕ} {a : α}
    (h : p.get? i = some a) (hlast : p.isLast i = false) :
    (p.release i).live = p.live := by
  obtain ⟨n, hn⟩ := get?_eq_some_iff.mp h
  cases n with
  | zero => simp [isLast, hn] at hlast
  | succ n =>
      simpa [live, release] using
        countP_modify (fun c : Counted α => c.refs ≠ 0)
          (fun c => { c with refs := c.refs - 1 }) hn

theorem release_addRef (p : Pool α) (i : ℕ) : (p.addRef i).release i = p := by
  rw [release, addRef, List.modify_modify_eq]
  exact List.modify_id i p

theorem isLast_addRef {p : Pool α} {i : ℕ} {a : α} (h : p.get? i = some a) :
    (p.addRef i).isLast i = false := by
  obtain ⟨n, hn⟩ := get?_eq_some_iff.mp h
  simp [isLast, addRef, hn]

theorem isLast_alloc (p : Pool α) (a : α) :
    (p.alloc a).isLast p.length = true := by
  simp [isLast, alloc]

/-! ## Objects -/

theorem values_alloc (p : Pool α) (a : α) :
    (p.alloc a).values = p.values ++ [a] := by
  simp [values, alloc]

/-- A change that keeps the value of every object keeps the list of them. -/
theorem values_modify (p : Pool α) (i : ℕ) {f : Counted α → Counted α}
    (hf : ∀ c, (f c).value = c.value) :
    values (p.modify i f) = p.values := by
  apply List.ext_getElem?
  intro j
  simp only [values, List.getElem?_map, List.getElem?_modify]
  by_cases hij : i = j
  · cases hj : p[j]? with
    | none => simp
    | some c => simp [hij, hf]
  · cases hj : p[j]? with
    | none => simp
    | some c => simp [hij]

theorem values_addRef (p : Pool α) (i : ℕ) : (p.addRef i).values = p.values :=
  values_modify p i fun _ => rfl

theorem values_release (p : Pool α) (i : ℕ) :
    (p.release i).values = p.values :=
  values_modify p i fun _ => rfl

theorem mem_values_update {p : Pool α} {i : ℕ} {f : α → α} {a : α}
    (h : a ∈ (p.update i f).values) : ∃ b ∈ p.values, a = b ∨ a = f b := by
  rw [values, update] at h
  obtain ⟨c, hc, rfl⟩ := List.mem_map.mp h
  obtain ⟨j, hj⟩ := List.mem_iff_getElem?.mp hc
  rw [List.getElem?_modify] at hj
  obtain ⟨d, hd, hcd⟩ := Option.map_eq_some_iff.mp hj
  refine ⟨d.value, List.mem_map_of_mem (List.mem_of_getElem? hd), ?_⟩
  by_cases hij : i = j
  · simp only [hij, if_true] at hcd
    exact .inr (congrArg Counted.value hcd).symm
  · simp only [hij, if_false] at hcd
    exact .inl (congrArg Counted.value hcd).symm

theorem values_of_get? {p : Pool α} {i : ℕ} {a : α} (h : p.get? i = some a) :
    p.values[i]? = some a := by
  obtain ⟨n, hn⟩ := get?_eq_some_iff.mp h
  simp [values, hn]

/-! ## Counting references -/

/-- The number of references to the object at a place. -/
def refs (p : Pool α) (i : ℕ) : ℕ :=
  match p[i]? with
  | some c => c.refs
  | none => 0

theorem refs_of_some {p : Pool α} {i : ℕ} {c : Counted α} (h : p[i]? = some c) :
    p.refs i = c.refs := by
  rw [refs, h]

theorem refs_of_none {p : Pool α} {i : ℕ} (h : p[i]? = none) :
    p.refs i = 0 := by
  rw [refs, h]

theorem isSome_get?_iff {p : Pool α} {i : ℕ} :
    (p.get? i).isSome ↔ 0 < p.refs i := by
  rw [get?, refs]
  cases p[i]? with
  | none => simp
  | some c =>
      obtain ⟨value, n⟩ := c
      cases n with
      | zero => simp
      | succ n => simp

/-- What a change of the count at one place makes of all counts. -/
theorem refs_modify {p : Pool α} {i : ℕ} {f : Counted α → Counted α}
    {g : ℕ → ℕ} (hf : ∀ c, (f c).refs = g c.refs) (hg : g 0 = 0 ∨ i < p.length) :
    refs (p.modify i f) = Function.update p.refs i (g (p.refs i)) := by
  funext j
  by_cases hij : j = i
  · subst hij
    rw [Function.update_self, refs, List.getElem?_modify_eq]
    cases hj : p[j]? with
    | none =>
        rw [List.getElem?_eq_none_iff] at hj
        rw [refs_of_none (List.getElem?_eq_none_iff.mpr hj)]
        exact (hg.resolve_right (Nat.not_lt.mpr hj)).symm
    | some c =>
        rw [refs_of_some hj]
        exact hf c
  · rw [Function.update_of_ne hij, refs,
      List.getElem?_modify_ne f p (Ne.symm hij)]
    rfl

theorem refs_alloc (p : Pool α) (a : α) :
    (p.alloc a).refs = Function.update p.refs p.length 1 := by
  funext j
  rw [refs, alloc, Function.update_apply]
  rcases Nat.lt_trichotomy j p.length with hlt | rfl | hgt
  · rw [List.getElem?_append_left hlt, if_neg (Nat.ne_of_lt hlt)]
    rfl
  · rw [List.getElem?_concat_length, if_pos rfl]
  · have hout : j ≥ (p ++ [⟨a, 1⟩] : List (Counted α)).length := by
      rw [List.length_append]
      exact hgt
    rw [List.getElem?_eq_none hout, if_neg (Nat.ne_of_gt hgt),
      refs_of_none (List.getElem?_eq_none (Nat.le_of_lt hgt))]

theorem refs_length (p : Pool α) : p.refs p.length = 0 :=
  refs_of_none (List.getElem?_eq_none (Nat.le_refl _))

theorem refs_addRef {p : Pool α} {i : ℕ} {a : α} (h : p.get? i = some a) :
    (p.addRef i).refs = Function.update p.refs i (p.refs i + 1) := by
  obtain ⟨n, hn⟩ := get?_eq_some_iff.mp h
  exact refs_modify (g := (· + 1)) (fun _ => rfl)
    (.inr (List.getElem?_eq_some_iff.mp hn).1)

theorem refs_release (p : Pool α) (i : ℕ) :
    (p.release i).refs = Function.update p.refs i (p.refs i - 1) :=
  refs_modify (g := (· - 1)) (fun _ => rfl) (.inl rfl)

theorem refs_update (p : Pool α) (i : ℕ) (f : α → α) :
    (p.update i f).refs = p.refs := by
  have hrefs : (p.update i f).refs = Function.update p.refs i (p.refs i) :=
    refs_modify (g := id) (fun _ => rfl) (.inl rfl)
  rw [hrefs, Function.update_eq_self]

/-- An object allocated and released at once is never referred to. -/
theorem refs_release_alloc (p : Pool α) (a : α) :
    ((p.alloc a).release p.length).refs = p.refs := by
  rw [refs_release, refs_alloc, Function.update_self, Function.update_idem]
  exact Function.update_eq_self_iff.mpr p.refs_length.symm

/-- Nothing is alive exactly when nothing is referred to. -/
theorem live_eq_zero_iff {p : Pool α} : p.live = 0 ↔ ∀ i, p.refs i = 0 := by
  rw [live, List.countP_eq_zero]
  constructor
  · intro hnone i
    cases hi : p[i]? with
    | none => exact refs_of_none hi
    | some c =>
        rw [refs_of_some hi]
        simpa using hnone c (List.mem_of_getElem? hi)
  · intro hrefs c hc
    obtain ⟨i, hi⟩ := List.mem_iff_getElem?.mp hc
    have hzero := hrefs i
    rw [refs_of_some hi] at hzero
    simp [hzero]

end Pool

end TympanApo.Support
