import TympanApo.Support.Registry

/-!
# Registries that agree up to some places

Two registries agree up to a set of keys and a set of values if they have the
same keys and the same values elsewhere.  For fixed sets this is an
equivalence, and what an operation does inside the sets stays in its class.
Writing an entry or deleting a tree in both registries takes its place out of
the sets, so a plan that covers the sets leads from every registry of a class
to the same one.
-/

namespace TympanApo.Support.Registry

variable {κ ν δ : Type*}

/-- The same keys except at `keys`, and the same values except at `values`. -/
structure Agree (keys : List κ → Prop) (values : List κ → ν → Prop)
    (r r' : Registry κ ν δ) : Prop where
  hasKey : ∀ p, ¬ keys p → (r.HasKey p ↔ r'.HasKey p)
  value : ∀ p n, ¬ values p n → r.value p n = r'.value p n

/-- One value to be written, with the key that holds it. -/
structure Entry (κ ν δ : Type*) where
  path : List κ
  name : ν
  data : δ

namespace Agree

variable {keys keys' : List κ → Prop} {values values' : List κ → ν → Prop}
variable {r r₁ r₂ : Registry κ ν δ}

theorem refl (keys : List κ → Prop) (values : List κ → ν → Prop)
    (r : Registry κ ν δ) : Agree keys values r r :=
  ⟨fun _ _ => Iff.rfl, fun _ _ _ => rfl⟩

theorem trans (h₁ : Agree keys values r r₁) (h₂ : Agree keys values r₁ r₂) :
    Agree keys values r r₂ :=
  ⟨fun p hp => (h₁.hasKey p hp).trans (h₂.hasKey p hp),
    fun p n hn => (h₁.value p n hn).trans (h₂.value p n hn)⟩

theorem mono (h : Agree keys values r r₁) (hkeys : ∀ p, keys p → keys' p)
    (hvalues : ∀ p n, values p n → values' p n) : Agree keys' values' r r₁ :=
  ⟨fun p hp => h.hasKey p (mt (hkeys p) hp),
    fun p n hn => h.value p n (mt (hvalues p n) hn)⟩

/-- Registries that agree everywhere are equal. -/
theorem eq (h : Agree keys values r r₁) (hkeys : ∀ p, ¬ keys p)
    (hvalues : ∀ p n, ¬ values p n) : r = r₁ := by
  ext1
  funext p
  have hiff := h.hasKey p (hkeys p)
  by_cases hp : r.HasKey p
  · obtain ⟨f, hf⟩ := Option.isSome_iff_exists.mp hp
    obtain ⟨g, hg⟩ := Option.isSome_iff_exists.mp (hiff.mp hp)
    have hfg : f = g := by
      funext n
      have hvalue := h.value p n (hvalues p n)
      rwa [Registry.value, Registry.value, hf, hg] at hvalue
    rw [hf, hg, hfg]
  · have hnone := Option.not_isSome_iff_eq_none.mp hp
    have hnone₁ := Option.not_isSome_iff_eq_none.mp (mt hiff.mpr hp)
    rw [hnone, hnone₁]

/-! ## Staying in a class -/

variable [DecidableEq κ] {path : List κ} {name : ν}

theorem createKey (r : Registry κ ν δ) (hkeys : ∀ p, p <+: path → keys p) :
    Agree keys values r (r.createKey path) where
  hasKey p hp := by
    rw [hasKey_createKey, or_iff_right (mt (hkeys p) hp)]
  value p n _ := (r.value_createKey path p n).symm

theorem update [DecidableEq ν] (r : Registry κ ν δ) (content : Option δ)
    (hvalues : values path name) :
    Agree keys values r (r.update path name content) where
  hasKey p _ := hasKey_update.symm
  value p n hn := by
    refine (value_update_of_ne ?_ content).symm
    intro hplace
    obtain ⟨rfl, rfl⟩ := Prod.mk.inj hplace
    exact hn hvalues

theorem deleteTree (r : Registry κ ν δ) (hkeys : ∀ p, path <+: p → keys p)
    (hvalues : ∀ p n, path <+: p → values p n) :
    Agree keys values r (r.deleteTree path) where
  hasKey p hp := by
    rw [HasKey, HasKey, key_deleteTree_of_not_prefix (mt (hkeys p) hp)]
  value p n hn := by
    have hkey := key_deleteTree_of_not_prefix (r := r)
      (mt (hvalues p n) hn)
    exact (value_congr hkey n).symm

/-! ## Doing the same to both -/

/-- The key that is created in both, and the keys above it, are alike. -/
theorem congr_createKey (h : Agree keys values r r₁) (path : List κ) :
    Agree (fun p => keys p ∧ ¬ p <+: path) values (r.createKey path)
      (r₁.createKey path) where
  hasKey p hp := by
    rw [hasKey_createKey, hasKey_createKey]
    by_cases hle : p <+: path
    · exact iff_of_true (Or.inl hle) (Or.inl hle)
    · have hp' : ¬ keys p := fun hkeys => hp ⟨hkeys, hle⟩
      rw [h.hasKey p hp']
  value p n hn := by
    rw [value_createKey, value_createKey]
    exact h.value p n hn

/-- The value that is set in both is alike. -/
theorem congr_update [DecidableEq ν] (h : Agree keys values r r₁)
    (hpath : ¬ keys path) (name : ν) (content : Option δ) :
    Agree keys (fun p n => values p n ∧ (p, n) ≠ (path, name))
      (r.update path name content) (r₁.update path name content) where
  hasKey p hp := by
    rw [hasKey_update, hasKey_update]
    exact h.hasKey p hp
  value p n hn := by
    by_cases hplace : (p, n) = (path, name)
    · obtain ⟨rfl, rfl⟩ := Prod.mk.inj hplace
      by_cases hkey : r.HasKey p
      · rw [value_update_self hkey,
          value_update_self ((h.hasKey p hpath).mp hkey)]
      · have hkey₁ := mt (h.hasKey p hpath).mpr hkey
        rw [value_eq_none_of_not_hasKey (mt hasKey_update.mp hkey),
          value_eq_none_of_not_hasKey (mt hasKey_update.mp hkey₁)]
    · have hn' : ¬ values p n := fun hvalues => hn ⟨hvalues, hplace⟩
      rw [value_update_of_ne hplace, value_update_of_ne hplace]
      exact h.value p n hn'

/-- What is deleted in both is alike. -/
theorem congr_deleteTree (h : Agree keys values r r₁) (hpath : path ≠ []) :
    Agree (fun p => keys p ∧ ¬ path <+: p) (fun p n => values p n ∧ ¬ path <+: p)
      (r.deleteTree path) (r₁.deleteTree path) where
  hasKey p hp := by
    by_cases hle : path <+: p
    · exact iff_of_false (not_hasKey_deleteTree hpath hle)
        (not_hasKey_deleteTree hpath hle)
    · rw [HasKey, HasKey, key_deleteTree_of_not_prefix hle,
        key_deleteTree_of_not_prefix hle]
      exact h.hasKey p fun hkeys => hp ⟨hkeys, hle⟩
  value p n hn := by
    by_cases hle : path <+: p
    · rw [value_eq_none_of_not_hasKey (not_hasKey_deleteTree hpath hle),
        value_eq_none_of_not_hasKey (not_hasKey_deleteTree hpath hle)]
    · have hkey := fun r' : Registry κ ν δ =>
        key_deleteTree_of_not_prefix (r := r') hle
      rw [value_congr (hkey r), value_congr (hkey r₁)]
      exact h.value p n fun hvalues => hn ⟨hvalues, hle⟩

end Agree

/-! ## Plans -/

section Plans

variable [DecidableEq κ] [DecidableEq ν]

/-- Create the key of an entry and set its value. -/
def Entry.write (e : Entry κ ν δ) (r : Registry κ ν δ) : Registry κ ν δ :=
  (r.createKey e.path).setValue e.path e.name e.data

/-- Write entries in turn. -/
def writeAll (plan : List (Entry κ ν δ)) (r : Registry κ ν δ) :
    Registry κ ν δ :=
  plan.foldl (fun r e => e.write r) r

/-- Some entry lies at or below `p`. -/
def Makes (plan : List (Entry κ ν δ)) (p : List κ) : Prop :=
  ∃ e ∈ plan, p <+: e.path

/-- Some entry is the value `n` of `p`. -/
def Sets (plan : List (Entry κ ν δ)) (p : List κ) (n : ν) : Prop :=
  ∃ e ∈ plan, (p, n) = (e.path, e.name)

theorem writeAll_append (plan rest : List (Entry κ ν δ))
    (r : Registry κ ν δ) :
    writeAll (plan ++ rest) r = writeAll rest (writeAll plan r) :=
  List.foldl_append

variable {keys : List κ → Prop} {values : List κ → ν → Prop}
variable {r r₁ : Registry κ ν δ}

theorem Agree.congr_write (h : Agree keys values r r₁) (e : Entry κ ν δ) :
    Agree (fun p => keys p ∧ ¬ p <+: e.path)
      (fun p n => values p n ∧ (p, n) ≠ (e.path, e.name)) (e.write r)
      (e.write r₁) :=
  (h.congr_createKey e.path).congr_update
    (fun hkeys => hkeys.2 List.prefix_rfl) e.name (some e.data)

theorem Agree.congr_writeAll (h : Agree keys values r r₁)
    (plan : List (Entry κ ν δ)) :
    Agree (fun p => keys p ∧ ¬ Makes plan p)
      (fun p n => values p n ∧ ¬ Sets plan p n) (writeAll plan r)
      (writeAll plan r₁) := by
  induction plan generalizing keys values r r₁ with
  | nil => exact h.mono (by simp [Makes]) (by simp [Sets])
  | cons e plan ih =>
      refine (ih (h.congr_write e)).mono ?_ ?_
      · rintro p ⟨⟨hkeys, hfirst⟩, hrest⟩
        refine ⟨hkeys, ?_⟩
        rintro ⟨e', he', hle⟩
        rcases List.mem_cons.mp he' with rfl | he'
        · exact hfirst hle
        · exact hrest ⟨e', he', hle⟩
      · rintro p n ⟨⟨hvalues, hfirst⟩, hrest⟩
        refine ⟨hvalues, ?_⟩
        rintro ⟨e', he', hplace⟩
        rcases List.mem_cons.mp he' with rfl | he'
        · exact hfirst hplace
        · exact hrest ⟨e', he', hplace⟩

/-- A plan that covers the places of a class leads to one registry. -/
theorem Agree.writeAll_eq (h : Agree keys values r r₁)
    {plan : List (Entry κ ν δ)} (hkeys : ∀ p, keys p → Makes plan p)
    (hvalues : ∀ p n, values p n → Sets plan p n) :
    writeAll plan r = writeAll plan r₁ :=
  (h.congr_writeAll plan).eq (fun p hp => hp.2 (hkeys p hp.1))
    fun p n hn => hn.2 (hvalues p n hn.1)

end Plans

end TympanApo.Support.Registry
