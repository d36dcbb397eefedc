import Mathlib.Data.List.Induction
import TympanApo.Support.Run

/-!
# Linearisation points

The calls of a machine take many steps; each takes effect at one of them.  A
stamped machine records these moments beside the events of the machine.  When
the state of a serial object can be read off the state of the machine, the runs
that linearise to the object are those whose every step keeps a guard, and what
a thread was answered is what its operations answered, in the same order.
-/

namespace TympanApo.Support

variable {σ ι ε τ ο ρ : Type*}

/-! ## Paths of a functional relation -/

theorem Path.of_nil {R : τ → ο → τ → Prop} {t u : τ} (h : Path R t [] u) :
    t = u := by
  generalize hlabels : ([] : List ο) = labels at h
  cases h with
  | nil => rfl
  | snoc => simp at hlabels

theorem Path.of_concat {R : τ → ο → τ → Prop} {t v : τ} {ls : List ο} {l : ο}
    (h : Path R t (ls ++ [l]) v) : ∃ u, Path R t ls u ∧ R u l v := by
  generalize hlabels : ls ++ [l] = labels at h
  cases h with
  | nil => simp at hlabels
  | snoc hpath hstep =>
      obtain ⟨rfl, hlast⟩ := List.append_inj' hlabels rfl
      obtain rfl := List.singleton_inj.mp hlast
      exact ⟨_, hpath, hstep⟩

theorem Path.of_single {R : τ → ο → τ → Prop} {t u : τ} {l : ο}
    (h : Path R t [l] u) : R t l u := by
  have hconcat : Path R t ([] ++ [l]) u := h
  obtain ⟨v, hnone, hstep⟩ := hconcat.of_concat
  obtain rfl := hnone.of_nil
  exact hstep

/-- A path over a concatenation passes through the state between. -/
theorem Path.split {R : τ → ο → τ → Prop} {t v : τ} {ls ms : List ο}
    (h : Path R t (ls ++ ms) v) : ∃ u, Path R t ls u ∧ Path R u ms v := by
  induction ms using List.reverseRecOn generalizing v with
  | nil =>
      rw [List.append_nil] at h
      exact ⟨v, h, Path.nil v⟩
  | append_singleton ms l ih =>
      rw [← List.append_assoc] at h
      obtain ⟨u, hpath, hstep⟩ := h.of_concat
      obtain ⟨w, hfirst, hrest⟩ := ih hpath
      exact ⟨w, hfirst, Path.snoc hrest hstep⟩

/-- A step is determined by its label. -/
def Functional (R : τ → ο → τ → Prop) : Prop :=
  ∀ ⦃t u v : τ⦄ ⦃l : ο⦄, R t l u → R t l v → u = v

/-- Labels determine where a path of a functional relation ends. -/
theorem Functional.path_unique {R : τ → ο → τ → Prop} (hR : Functional R)
    {t u v : τ} {ls : List ο} (hu : Path R t ls u) (hv : Path R t ls v) :
    u = v := by
  induction hu generalizing v with
  | nil => exact hv.of_nil
  | snoc _ hstep ih =>
      obtain ⟨w, hpath, hstep'⟩ := hv.of_concat
      obtain rfl := ih hpath
      exact hR hstep hstep'

/-! ## Stamped machines -/

/-- An event of a machine, or an operation that takes effect. -/
inductive Stamp (ε ο : Type*)
  | returned (e : ε)
  | effect (op : ο)

namespace Stamp

def returned? : Stamp ε ο → Option ε
  | returned e => some e
  | effect _ => none

def effect? : Stamp ε ο → Option ο
  | returned _ => none
  | effect op => some op

/-- The events among the stamps. -/
def returns (H : List (Stamp ε ο)) : List ε :=
  H.filterMap returned?

/-- The operations that took effect, in order. -/
def effects (H : List (Stamp ε ο)) : List ο :=
  H.filterMap effect?

/-- The stamps of one step. -/
def ofStep (op : Option ο) (es : List ε) : List (Stamp ε ο) :=
  op.toList.map .effect ++ es.map .returned

@[simp] theorem returns_append (H K : List (Stamp ε ο)) :
    returns (H ++ K) = returns H ++ returns K :=
  List.filterMap_append

@[simp] theorem effects_append (H K : List (Stamp ε ο)) :
    effects (H ++ K) = effects H ++ effects K :=
  List.filterMap_append

@[simp] theorem returns_ofStep (op : Option ο) (es : List ε) :
    returns (ofStep op es) = es := by
  simp [returns, ofStep, Function.comp_def, returned?]

@[simp] theorem effects_ofStep (op : Option ο) (es : List ε) :
    effects (ofStep op es) = op.toList := by
  simp [effects, ofStep, Function.comp_def, effect?]

end Stamp

open Stamp

/-- The machine with the moments at which its calls take effect. -/
def Machine.stamped (M : Machine σ ι ε) (effect : σ → ι → Option ο) :
    Machine σ ι (Stamp ε ο) where
  init := M.init
  step s a :=
    match M.step s a with
    | none => none
    | some (s', es) => some (s', ofStep (effect s a) es)

variable {M : Machine σ ι ε} {effect : σ → ι → Option ο}

theorem Machine.step_of_stamped {s s' : σ} {a : ι} {K : List (Stamp ε ο)}
    (h : (M.stamped effect).step s a = some (s', K)) :
    ∃ es, M.step s a = some (s', es) ∧ K = ofStep (effect s a) es := by
  simp only [Machine.stamped] at h
  split at h
  · cases h
  next s₁ es hstep =>
    obtain ⟨rfl, rfl⟩ := Prod.mk.inj (Option.some.inj h)
    exact ⟨es, hstep, rfl⟩

/-- Stamping changes no run. -/
theorem Machine.reaches_of_stamped {H : List (Stamp ε ο)} {s : σ}
    (h : (M.stamped effect).Reaches H s) : M.Reaches (returns H) s := by
  refine h.invariant (I := fun H s => M.Reaches (returns H) s) Machine.Run.start
    ?_
  intro H K s s' a hreach _ hstamped
  obtain ⟨es, hstep, rfl⟩ := Machine.step_of_stamped hstamped
  rw [returns_append, returns_ofStep]
  exact hreach.next hstep

/-- What was answered is what the operations answered, except for those that
are still `pending`. -/
theorem Machine.answers_agree {answered : ε → Option ρ}
    {answer : ο → Option ρ} {pending : σ → List ρ}
    (hstart : pending M.init = [])
    (hnext : ∀ {K es : List ε} {s s' : σ} {a : ι}, M.Reaches K s →
      M.step s a = some (s', es) →
        pending s ++ (effect s a).toList.filterMap answer =
          es.filterMap answered ++ pending s')
    {H : List (Stamp ε ο)} {s : σ} (h : (M.stamped effect).Reaches H s) :
    (effects H).filterMap answer =
      (returns H).filterMap answered ++ pending s := by
  refine h.invariant_of_run (I := fun H s => (effects H).filterMap answer =
    (returns H).filterMap answered ++ pending s) ?_ ?_
  · exact hstart.symm
  · intro H K s s' a hreach ih _ hstamped
    obtain ⟨es, hstep, rfl⟩ := Machine.step_of_stamped hstamped
    rw [effects_append, effects_ofStep, returns_append, returns_ofStep,
      List.filterMap_append, List.filterMap_append, ih, List.append_assoc,
      hnext (Machine.reaches_of_stamped hreach) hstep, List.append_assoc]

/-- The runs that linearise to a functional object are those whose every step
keeps a guard, if from every state the guard decides whether what takes effect
is a legal operation on the state of the object. -/
theorem Machine.run_iff_linearises {R : τ → ο → τ → Prop}
    {G : σ → ι → Prop} (abs : σ → τ)
    (hR : Functional R)
    (hlegal : ∀ {K es : List ε} {s s' : σ} {a : ι}, M.Reaches K s →
      M.step s a = some (s', es) → G s a →
        Path R (abs s) (effect s a).toList (abs s'))
    (hguard : ∀ {K es : List ε} {s s' : σ} {a : ι} {t : τ}, M.Reaches K s →
      M.step s a = some (s', es) → Path R (abs s) (effect s a).toList t →
        G s a)
    {H : List (Stamp ε ο)} {s : σ} (h : (M.stamped effect).Reaches H s) :
    (M.stamped effect).Run G H s ↔ ∃ t, Path R (abs M.init) (effects H) t := by
  have hforward : ∀ {H : List (Stamp ε ο)} {s : σ},
      (M.stamped effect).Run G H s → Path R (abs M.init) (effects H) (abs s) := by
    intro H s hrun
    refine hrun.invariant_of_run
      (I := fun H s => Path R (abs M.init) (effects H) (abs s))
      (Path.nil _) ?_
    intro H K s s' a hrun ih hG hstamped
    obtain ⟨es, hstep, rfl⟩ := Machine.step_of_stamped hstamped
    rw [effects_append, effects_ofStep]
    exact ih.append
      (hlegal (Machine.reaches_of_stamped hrun.reaches) hstep hG)
  constructor
  · intro hrun
    exact ⟨abs s, hforward hrun⟩
  · intro hpath
    induction h with
    | start => exact Machine.Run.start
    | next hreach _ hstamped ih =>
        obtain ⟨t, hpath⟩ := hpath
        obtain ⟨es, hstep, rfl⟩ := Machine.step_of_stamped hstamped
        rw [effects_append, effects_ofStep] at hpath
        obtain ⟨u, hbefore, hlast⟩ := hpath.split
        have hrun := ih ⟨u, hbefore⟩
        obtain rfl := hR.path_unique hbefore (hforward hrun)
        have hG := hguard (Machine.reaches_of_stamped hreach) hstep hlast
        exact Machine.Run.next hrun hG hstamped

end TympanApo.Support
