import Mathlib.Data.List.Infix
import Mathlib.Logic.Function.Basic

/-!
# Trees of keys with values

A registry gives some paths of names a key, and every key a map from value
names to data.  A key never stands without its parent.  Creating a key creates
what is missing above it, and deleting a tree removes a key with everything
below.  The rules say what each operation does to the keys and to the values,
and what it leaves alone.
-/

namespace TympanApo.Support

/-- Keys named by paths of `κ`; their values are named by `ν` and hold `δ`. -/
@[ext] structure Registry (κ ν δ : Type*) where
  /-- The values of the key at a path, if there is a key. -/
  key : List κ → Option (ν → Option δ)
  root : (key []).isSome
  closed : ∀ path name, (key (path ++ [name])).isSome → (key path).isSome

namespace Registry

variable {κ ν δ : Type*}

/-- There is a key at `path`. -/
def HasKey (r : Registry κ ν δ) (path : List κ) : Prop :=
  (r.key path).isSome

instance (r : Registry κ ν δ) (path : List κ) : Decidable (r.HasKey path) :=
  inferInstanceAs (Decidable (_ = true))

/-- The data of a value, if its key and the value are there. -/
def value (r : Registry κ ν δ) (path : List κ) (name : ν) : Option δ :=
  (r.key path).bind fun values => values name

/-- The registry with a root and nothing else. -/
def empty [DecidableEq κ] : Registry κ ν δ where
  key path := if path = [] then some fun _ => none else none
  root := by simp
  closed := by simp

theorem value_eq_none_of_not_hasKey {r : Registry κ ν δ} {path : List κ}
    (h : ¬ r.HasKey path) (name : ν) : r.value path name = none := by
  rw [value, Option.not_isSome_iff_eq_none.mp h]
  rfl

theorem value_congr {r r' : Registry κ ν δ} {path : List κ}
    (h : r'.key path = r.key path) (name : ν) :
    r'.value path name = r.value path name := by
  rw [value, value, h]

/-- Everything above a key is a key. -/
theorem HasKey.of_prefix {r : Registry κ ν δ} {path above : List κ}
    (h : r.HasKey path) (hle : above <+: path) : r.HasKey above := by
  obtain ⟨below, rfl⟩ := hle
  induction below using List.reverseRecOn with
  | nil => simpa using h
  | append_singleton below name ih =>
      rw [← List.append_assoc] at h
      exact ih (r.closed _ name h)

/-! ## Creating a key -/

section Create

variable [DecidableEq κ]

/-- Create the key at `path`, and the keys missing above it. -/
def createKey (r : Registry κ ν δ) (path : List κ) : Registry κ ν δ where
  key p := if p <+: path then some ((r.key p).getD fun _ => none) else r.key p
  root := by simp
  closed := by
    intro p name h
    split
    · rfl
    next hp =>
      have hbelow : ¬ p ++ [name] <+: path := fun hle =>
        hp ((List.prefix_append p [name]).trans hle)
      rw [if_neg hbelow] at h
      exact r.closed p name h

theorem hasKey_createKey {r : Registry κ ν δ} {path p : List κ} :
    (r.createKey path).HasKey p ↔ p <+: path ∨ r.HasKey p := by
  unfold HasKey createKey
  by_cases h : p <+: path <;> simp [h]

theorem hasKey_createKey_self (r : Registry κ ν δ) (path : List κ) :
    (r.createKey path).HasKey path :=
  hasKey_createKey.mpr (Or.inl List.prefix_rfl)

theorem HasKey.createKey {r : Registry κ ν δ} {p : List κ} (h : r.HasKey p)
    (path : List κ) : (r.createKey path).HasKey p :=
  hasKey_createKey.mpr (Or.inr h)

/-- A key that exists already is left as it is. -/
theorem key_createKey_of_hasKey {r : Registry κ ν δ} {p : List κ}
    (h : r.HasKey p) (path : List κ) :
    (r.createKey path).key p = r.key p := by
  obtain ⟨values, hvalues⟩ := Option.isSome_iff_exists.mp h
  simp [Registry.createKey, hvalues]

theorem key_createKey_of_not_prefix {r : Registry κ ν δ} {path p : List κ}
    (h : ¬ p <+: path) : (r.createKey path).key p = r.key p := by
  simp [createKey, h]

/-- Creating keys alters no value. -/
@[simp] theorem value_createKey (r : Registry κ ν δ) (path p : List κ)
    (name : ν) : (r.createKey path).value p name = r.value p name := by
  by_cases h : r.HasKey p
  · exact value_congr (key_createKey_of_hasKey h path) name
  · rw [value_eq_none_of_not_hasKey h]
    have hnone : r.key p = none := Option.not_isSome_iff_eq_none.mp h
    by_cases hp : p <+: path <;> simp [value, createKey, hp, hnone]

/-- Opening a key that exists. -/
theorem createKey_eq_self_iff {r : Registry κ ν δ} {path : List κ} :
    r.createKey path = r ↔ r.HasKey path := by
  constructor
  · intro h
    rw [← h]
    exact hasKey_createKey_self r path
  · intro h
    ext1
    funext p
    by_cases hp : p <+: path
    · exact key_createKey_of_hasKey (h.of_prefix hp) path
    · exact key_createKey_of_not_prefix hp

end Create

/-! ## Setting and deleting a value -/

section Values

variable [DecidableEq κ] [DecidableEq ν]

/-- Give a value of an existing key new content; `none` deletes it. -/
def update (r : Registry κ ν δ) (path : List κ) (name : ν)
    (content : Option δ) : Registry κ ν δ where
  key p :=
    if p = path then
      (r.key p).map fun values => Function.update values name content
    else r.key p
  root := by
    split <;> simp [r.root]
  closed := by
    intro p n h
    have hkey : (r.key (p ++ [n])).isSome := by
      split at h <;> simpa using h
    have habove := r.closed p n hkey
    split <;> simpa using habove

def setValue (r : Registry κ ν δ) (path : List κ) (name : ν) (data : δ) :
    Registry κ ν δ :=
  r.update path name (some data)

def deleteValue (r : Registry κ ν δ) (path : List κ) (name : ν) :
    Registry κ ν δ :=
  r.update path name none

theorem hasKey_update {r : Registry κ ν δ} {path p : List κ} {name : ν}
    {content : Option δ} :
    (r.update path name content).HasKey p ↔ r.HasKey p := by
  unfold HasKey update
  by_cases h : p = path <;> simp [h]

theorem key_update_of_ne {r : Registry κ ν δ} {path p : List κ} (h : p ≠ path)
    (name : ν) (content : Option δ) :
    (r.update path name content).key p = r.key p := by
  simp [update, h]

theorem value_update_self {r : Registry κ ν δ} {path : List κ}
    (h : r.HasKey path) (name : ν) (content : Option δ) :
    (r.update path name content).value path name = content := by
  obtain ⟨values, hvalues⟩ := Option.isSome_iff_exists.mp h
  simp [value, update, hvalues]

theorem value_update_of_ne {r : Registry κ ν δ} {path p : List κ} {name n : ν}
    (h : (p, n) ≠ (path, name)) (content : Option δ) :
    (r.update path name content).value p n = r.value p n := by
  by_cases hp : p = path
  · subst hp
    have hn : n ≠ name := fun hn => h (by rw [hn])
    cases hkey : r.key p <;>
      simp [value, update, hkey, Function.update_of_ne hn]
  · exact value_congr (key_update_of_ne hp name content) n

theorem value_setValue_self {r : Registry κ ν δ} {path : List κ}
    (h : r.HasKey path) (name : ν) (data : δ) :
    (r.setValue path name data).value path name = some data :=
  value_update_self h name (some data)

theorem value_setValue_of_ne {r : Registry κ ν δ} {path p : List κ}
    {name n : ν} (h : (p, n) ≠ (path, name)) (data : δ) :
    (r.setValue path name data).value p n = r.value p n :=
  value_update_of_ne h (some data)

theorem HasKey.setValue {r : Registry κ ν δ} {p : List κ} (h : r.HasKey p)
    (path : List κ) (name : ν) (data : δ) :
    (r.setValue path name data).HasKey p :=
  hasKey_update.mpr h

/-- Writing what is there changes nothing. -/
theorem update_value_self (r : Registry κ ν δ) (path : List κ) (name : ν) :
    r.update path name (r.value path name) = r := by
  ext1
  funext p
  by_cases hp : p = path
  · subst hp
    cases hkey : r.key p <;> simp [update, value, hkey]
  · exact key_update_of_ne hp name _

theorem deleteValue_of_value_eq_none {r : Registry κ ν δ} {path : List κ}
    {name : ν} (h : r.value path name = none) : r.deleteValue path name = r := by
  have hsame := r.update_value_self path name
  rwa [h] at hsame

end Values

/-! ## Deleting a tree -/

section Delete

variable [DecidableEq κ]

/-- Delete the key at `path` with everything below; the root itself stays. -/
def deleteTree (r : Registry κ ν δ) (path : List κ) : Registry κ ν δ where
  key p := if p ≠ [] ∧ path <+: p then none else r.key p
  root := by simp [r.root]
  closed := by
    intro p name h
    split at h
    · cases h
    next hname =>
      have habove : ¬ (p ≠ [] ∧ path <+: p) := fun hp =>
        hname ⟨by simp, hp.2.trans (List.prefix_append p [name])⟩
      rw [if_neg habove]
      exact r.closed p name h

theorem not_hasKey_deleteTree {r : Registry κ ν δ} {path p : List κ}
    (hpath : path ≠ []) (h : path <+: p) : ¬ (r.deleteTree path).HasKey p := by
  have hp : p ≠ [] := by
    rintro rfl
    exact hpath (List.prefix_nil.mp h)
  simp [HasKey, deleteTree, h, hp]

theorem key_deleteTree_of_not_prefix {r : Registry κ ν δ} {path p : List κ}
    (h : ¬ path <+: p) : (r.deleteTree path).key p = r.key p := by
  simp [deleteTree, h]

/-- Deleting a tree that is not there. -/
theorem deleteTree_of_not_hasKey {r : Registry κ ν δ} {path : List κ}
    (h : ¬ r.HasKey path) : r.deleteTree path = r := by
  ext1
  funext p
  by_cases hp : path <+: p
  · have hnone : r.key p = none := Option.not_isSome_iff_eq_none.mp
      fun hkey => h (HasKey.of_prefix hkey hp)
    simp [deleteTree, hnone]
  · exact key_deleteTree_of_not_prefix hp

theorem HasKey.of_deleteTree {r : Registry κ ν δ} {path p : List κ}
    (h : (r.deleteTree path).HasKey p) : r.HasKey p := by
  by_cases hp : p ≠ [] ∧ path <+: p <;> simp [HasKey, deleteTree, hp] at h
  exact h

end Delete

/-! ## Frames -/

/-- From `r` to `r'` nothing changed except at and below the paths `tops`, and
except for keys that were created above them. -/
structure Confined (tops : List κ → Prop) (r r' : Registry κ ν δ) : Prop where
  kept : ∀ p, (∀ top, tops top → ¬ top <+: p) → r.HasKey p →
    r'.key p = r.key p
  aside : ∀ p, (∀ top, tops top → ¬ top <+: p ∧ ¬ p <+: top) →
    r'.key p = r.key p

namespace Confined

variable {tops : List κ → Prop} {r r₁ r₂ : Registry κ ν δ} {path : List κ}

theorem refl (tops : List κ → Prop) (r : Registry κ ν δ) : Confined tops r r :=
  ⟨fun _ _ _ => rfl, fun _ _ => rfl⟩

theorem trans (h₁ : Confined tops r r₁) (h₂ : Confined tops r₁ r₂) :
    Confined tops r r₂ where
  kept p hp hkey := by
    have heq := h₁.kept p hp hkey
    have hkey₁ : r₁.HasKey p := by
      unfold HasKey
      rw [heq]
      exact hkey
    rw [h₂.kept p hp hkey₁, heq]
  aside p hp := (h₂.aside p hp).trans (h₁.aside p hp)

theorem mono {tops' : List κ → Prop} (hsub : ∀ top, tops top → tops' top)
    (h : Confined tops r r₁) : Confined tops' r r₁ where
  kept p hp := h.kept p fun top htop => hp top (hsub top htop)
  aside p hp := h.aside p fun top htop => hp top (hsub top htop)

/-- Creating a key on the way to a path below one of the tops. -/
theorem createKey [DecidableEq κ] {top below : List κ} (htop : tops top)
    (hbelow : top <+: below) (hpath : path <+: below) :
    Confined tops r (r.createKey path) where
  kept p _ hkey := key_createKey_of_hasKey hkey path
  aside p hp := by
    refine key_createKey_of_not_prefix fun hle => ?_
    rcases List.prefix_or_prefix_of_prefix (hle.trans hpath) hbelow with h | h
    · exact (hp top htop).2 h
    · exact (hp top htop).1 h

theorem update [DecidableEq κ] [DecidableEq ν] {top : List κ}
    (htop : tops top) (hpath : top <+: path) (name : ν) (content : Option δ) :
    Confined tops r (r.update path name content) where
  kept p hp _ := by
    have hne : p ≠ path := by
      rintro rfl
      exact hp top htop hpath
    exact key_update_of_ne hne name content
  aside p hp := by
    have hne : p ≠ path := by
      rintro rfl
      exact (hp top htop).1 hpath
    exact key_update_of_ne hne name content

theorem deleteTree [DecidableEq κ] (htop : tops path) :
    Confined tops r (r.deleteTree path) where
  kept _ hp _ := key_deleteTree_of_not_prefix (hp path htop)
  aside _ hp := key_deleteTree_of_not_prefix (hp path htop).1

end Confined

end Registry

end TympanApo.Support
