import Mathlib.Data.List.Basic

/-!
# Runs of labelled machines

A machine takes one action at a time; an action that is enabled leads to one
new state and emits a finite list of events.  The history of a run is the
concatenation of what its steps emitted.  The module packages the inductions
that safety arguments need once: invariants of a state together with its
history, runs whose every step meets a guard, simulation by an abstract
labelled relation, runs told apart by their events, events that are justified
by the history before them, and events that stand until another ends them.
-/

namespace TympanApo.Support

variable {σ ι ε τ ο : Type*}

/-! ## Paths of a labelled relation -/

/-- Finite paths of a labelled relation, extended at their end. -/
inductive Path (R : τ → ο → τ → Prop) : τ → List ο → τ → Prop
  | nil (t : τ) : Path R t [] t
  | snoc {t u v : τ} {ls : List ο} {l : ο} :
      Path R t ls u → R u l v → Path R t (ls ++ [l]) v

theorem Path.single {R : τ → ο → τ → Prop} {t u : τ} {l : ο} (h : R t l u) :
    Path R t [l] u :=
  Path.snoc (Path.nil t) h

theorem Path.append {R : τ → ο → τ → Prop} {t u v : τ} {ls ms : List ο}
    (h₁ : Path R t ls u) (h₂ : Path R u ms v) : Path R t (ls ++ ms) v := by
  induction h₂ with
  | nil => simpa using h₁
  | snoc _ hstep ih =>
      rw [← List.append_assoc]
      exact Path.snoc ih hstep

/-! ## Machines and their runs -/

/-- A machine: an action is either disabled in a state or leads to a new
state and emits a list of events. -/
structure Machine (σ ι ε : Type*) where
  /-- The state every run starts in. -/
  init : σ
  /-- One step. -/
  step : σ → ι → Option (σ × List ε)

/-- `M.Run G H s`: a run of `M` all of whose steps meet the guard `G` emitted
the history `H` and ended in `s`. -/
inductive Machine.Run (M : Machine σ ι ε) (G : σ → ι → Prop) :
    List ε → σ → Prop
  | start : M.Run G [] M.init
  | next {H es : List ε} {s s' : σ} {a : ι} :
      M.Run G H s → G s a → M.step s a = some (s', es) →
        M.Run G (H ++ es) s'

/-- Runs with no condition on their steps. -/
abbrev Machine.Reaches (M : Machine σ ι ε) (H : List ε) (s : σ) : Prop :=
  M.Run (fun _ _ => True) H s

theorem Machine.Reaches.next {M : Machine σ ι ε} {H es : List ε}
    {s s' : σ} {a : ι} (h : M.Reaches H s) (hstep : M.step s a = some (s', es)) :
    M.Reaches (H ++ es) s' :=
  Machine.Run.next h trivial hstep

/-- Forgetting the guard of a run. -/
theorem Machine.Run.reaches {M : Machine σ ι ε} {G : σ → ι → Prop}
    {H : List ε} {s : σ} (h : M.Run G H s) : M.Reaches H s := by
  induction h with
  | start => exact Machine.Run.start
  | next _ _ hstep ih => exact ih.next hstep

/-- What holds of the initial state with the empty history and is kept by
every guarded step from a state that a run reaches holds after every run. -/
theorem Machine.Run.invariant_of_run {M : Machine σ ι ε} {G : σ → ι → Prop}
    {I : List ε → σ → Prop} (hstart : I [] M.init)
    (hnext : ∀ {H es : List ε} {s s' : σ} {a : ι}, M.Run G H s →
      I H s → G s a → M.step s a = some (s', es) → I (H ++ es) s')
    {H : List ε} {s : σ} (h : M.Run G H s) : I H s := by
  induction h with
  | start => exact hstart
  | next hrun hguard hstep ih => exact hnext hrun ih hguard hstep

/-- The rule for invariants that need nothing from the run. -/
theorem Machine.Run.invariant {M : Machine σ ι ε} {G : σ → ι → Prop}
    {I : List ε → σ → Prop} (hstart : I [] M.init)
    (hnext : ∀ {H es : List ε} {s s' : σ} {a : ι},
      I H s → G s a → M.step s a = some (s', es) → I (H ++ es) s')
    {H : List ε} {s : σ} (h : M.Run G H s) : I H s :=
  h.invariant_of_run hstart fun _ => hnext

/-- What every step of a run emits, the run emits. -/
theorem Machine.Run.forall_mem {M : Machine σ ι ε} {G : σ → ι → Prop}
    {P : ε → Prop}
    (hnext : ∀ {H es : List ε} {s s' : σ} {a : ι}, M.Run G H s → G s a →
      M.step s a = some (s', es) → ∀ e ∈ es, P e)
    {H : List ε} {s : σ} (h : M.Run G H s) : ∀ e ∈ H, P e := by
  induction h with
  | start => simp
  | next hrun hguard hstep ih =>
      intro e he
      rcases List.mem_append.mp he with hold | hnew
      · exact ih e hold
      · exact hnext hrun hguard hstep e hnew

/-- Forward simulation: if every step is matched by a path of the abstract
relation over the observed events, then so is every run. -/
theorem Machine.Run.simulates {M : Machine σ ι ε} {G : σ → ι → Prop}
    {R : τ → ο → τ → Prop} {S : σ → τ → Prop} (observe : ε → Option ο)
    {t₀ : τ} (hstart : S M.init t₀)
    (hnext : ∀ {es : List ε} {s s' : σ} {a : ι} {t : τ},
      S s t → G s a → M.step s a = some (s', es) →
        ∃ t', Path R t (es.filterMap observe) t' ∧ S s' t')
    {H : List ε} {s : σ} (h : M.Run G H s) :
    ∃ t, Path R t₀ (H.filterMap observe) t ∧ S s t := by
  refine h.invariant (I := fun H s =>
    ∃ t, Path R t₀ (H.filterMap observe) t ∧ S s t) ?_ ?_
  · exact ⟨t₀, Path.nil t₀, hstart⟩
  · rintro H es s s' a ⟨t, hpath, hrel⟩ hguard hstep
    obtain ⟨t', hpath', hrel'⟩ := hnext hrel hguard hstep
    refine ⟨t', ?_, hrel'⟩
    rw [List.filterMap_append]
    exact hpath.append hpath'

/-- If a step emits only good events exactly when it meets the guard, then the
guarded runs are the runs with only good events. -/
theorem Machine.run_iff_reaches {M : Machine σ ι ε} {G : σ → ι → Prop}
    {P : ε → Prop}
    (hiff : ∀ {H es : List ε} {s s' : σ} {a : ι},
      M.Reaches H s → M.step s a = some (s', es) →
        ((∀ e ∈ es, P e) ↔ G s a))
    (H : List ε) (s : σ) :
    M.Run G H s ↔ M.Reaches H s ∧ ∀ e ∈ H, P e := by
  constructor
  · intro h
    refine ⟨h.reaches, h.forall_mem ?_⟩
    intro H es s s' a hrun hguard hstep
    exact (hiff hrun.reaches hstep).mpr hguard
  · rintro ⟨h, hgood⟩
    induction h with
    | start => exact Machine.Run.start
    | next hrun _ hstep ih =>
        have hrun' := ih fun e he => hgood e (List.mem_append_left _ he)
        have hguard := (hiff hrun hstep).mp
          fun e he => hgood e (List.mem_append_right _ he)
        exact Machine.Run.next hrun' hguard hstep

/-- Guards that agree wherever a run under the second leads allow the same
runs. -/
theorem Machine.run_congr {M : Machine σ ι ε} {G G' : σ → ι → Prop}
    (hiff : ∀ {H : List ε} {s : σ} {a : ι}, M.Run G' H s → (G s a ↔ G' s a))
    (H : List ε) (s : σ) : M.Run G H s ↔ M.Run G' H s := by
  constructor
  · intro h
    induction h with
    | start => exact Machine.Run.start
    | next _ hguard hstep ih =>
        exact Machine.Run.next ih ((hiff ih).mp hguard) hstep
  · intro h
    induction h with
    | start => exact Machine.Run.start
    | next hrun hguard hstep ih =>
        exact Machine.Run.next ih ((hiff hrun).mpr hguard) hstep

/-! ## Executing a list of actions -/

/-- Take a list of actions in order, collecting the events. -/
def Machine.execFrom (M : Machine σ ι ε) :
    List ι → List ε → σ → Option (List ε × σ)
  | [], H, s => some (H, s)
  | a :: as, H, s =>
      match M.step s a with
      | none => none
      | some (s', es) => M.execFrom as (H ++ es) s'

/-- Execute a list of actions from the initial state. -/
def Machine.exec (M : Machine σ ι ε) (as : List ι) : Option (List ε × σ) :=
  M.execFrom as [] M.init

theorem Machine.execFrom_cons {M : Machine σ ι ε} {a : ι} {es : List ε}
    {s s' : σ} (h : M.step s a = some (s', es)) (as : List ι) (H : List ε) :
    M.execFrom (a :: as) H s = M.execFrom as (H ++ es) s' := by
  rw [Machine.execFrom, h]

theorem Machine.Reaches.execFrom {M : Machine σ ι ε} {as : List ι}
    {H H' : List ε} {s s' : σ} (h : M.Reaches H s)
    (hexec : M.execFrom as H s = some (H', s')) : M.Reaches H' s' := by
  induction as generalizing H s with
  | nil =>
      simp only [Machine.execFrom, Option.some.injEq, Prod.mk.injEq] at hexec
      obtain ⟨rfl, rfl⟩ := hexec
      exact h
  | cons a as ih =>
      rw [Machine.execFrom] at hexec
      split at hexec
      · cases hexec
      next s₁ es hstep => exact ih (h.next hstep) hexec

theorem Machine.reaches_of_exec {M : Machine σ ι ε} (as : List ι)
    {H : List ε} {s : σ} (hexec : M.exec as = some (H, s)) : M.Reaches H s :=
  Machine.Reaches.execFrom Machine.Run.start hexec

/-- One more action at the end. -/
theorem Machine.execFrom_concat {M : Machine σ ι ε} {as : List ι} {a : ι}
    {H H₁ es : List ε} {s s₁ s₂ : σ}
    (hexec : M.execFrom as H s = some (H₁, s₁))
    (hstep : M.step s₁ a = some (s₂, es)) :
    M.execFrom (as ++ [a]) H s = some (H₁ ++ es, s₂) := by
  induction as generalizing H s with
  | nil =>
      obtain ⟨rfl, rfl⟩ := Prod.mk.inj (Option.some.inj hexec)
      rw [List.nil_append, Machine.execFrom_cons hstep]
      rfl
  | cons b as ih =>
      rw [Machine.execFrom] at hexec
      split at hexec
      · cases hexec
      next s' es' hfirst =>
        rw [List.cons_append, Machine.execFrom_cons hfirst]
        exact ih hexec

/-- The history only grows. -/
theorem Machine.execFrom_history {M : Machine σ ι ε} {as : List ι}
    {H H' : List ε} {s s' : σ} (hexec : M.execFrom as H s = some (H', s')) :
    ∃ K, H' = H ++ K := by
  induction as generalizing H s with
  | nil =>
      obtain ⟨rfl, rfl⟩ := Prod.mk.inj (Option.some.inj hexec)
      exact ⟨[], (List.append_nil H).symm⟩
  | cons a as ih =>
      rw [Machine.execFrom] at hexec
      split at hexec
      · cases hexec
      next s₁ es hstep =>
        obtain ⟨K, rfl⟩ := ih hexec
        exact ⟨es ++ K, List.append_assoc H es K⟩

/-- What holds of a state and of the actions that led to it, and is kept by
every step, holds after every list of actions that can be taken. -/
theorem Machine.execFrom_invariant {M : Machine σ ι ε}
    {I : List ι → σ → Prop}
    (hnext : ∀ {done : List ι} {es : List ε} {s s' : σ} {a : ι},
      I done s → M.step s a = some (s', es) → I (done ++ [a]) s')
    {done as : List ι} {H H' : List ε} {s s' : σ} (h : I done s)
    (hexec : M.execFrom as H s = some (H', s')) : I (done ++ as) s' := by
  induction as generalizing done H s with
  | nil =>
      obtain ⟨rfl, rfl⟩ := Prod.mk.inj (Option.some.inj hexec)
      rw [List.append_nil]
      exact h
  | cons a as ih =>
      rw [Machine.execFrom] at hexec
      split at hexec
      · cases hexec
      next s₁ es hstep =>
        rw [List.append_cons]
        exact ih (hnext h hstep) hexec

/-- The rule from the initial state. -/
theorem Machine.exec_invariant {M : Machine σ ι ε} {I : List ι → σ → Prop}
    (hstart : I [] M.init)
    (hnext : ∀ {done : List ι} {es : List ε} {s s' : σ} {a : ι},
      I done s → M.step s a = some (s', es) → I (done ++ [a]) s')
    {as : List ι} {H : List ε} {s : σ} (hexec : M.exec as = some (H, s)) :
    I as s :=
  Machine.execFrom_invariant hnext hstart hexec

/-! ## Events justified by the history before them -/

/-- Every event of `H` is justified by the events before it. -/
def Justified (P : List ε → ε → Prop) (H : List ε) : Prop :=
  ∀ H₁ e H₂, H = H₁ ++ e :: H₂ → P H₁ e

theorem justified_nil (P : List ε → ε → Prop) : Justified P [] := by
  intro H₁ e H₂ h
  simp at h

theorem Justified.concat {P : List ε → ε → Prop} {H : List ε} {e : ε}
    (hH : Justified P H) (he : P H e) : Justified P (H ++ [e]) := by
  intro H₁ e' H₂ h
  rcases List.eq_nil_or_concat H₂ with rfl | ⟨H₃, f, rfl⟩
  · obtain ⟨rfl, hcons⟩ := List.append_inj' h rfl
    obtain rfl := List.singleton_inj.mp hcons
    exact he
  · rw [List.concat_eq_append, ← List.cons_append, ← List.append_assoc] at h
    exact hH H₁ e' H₃ (List.append_inj' h rfl).1

/-- What happened so far was justified as well. -/
theorem Justified.of_append {P : List ε → ε → Prop} {H H' : List ε}
    (h : Justified P (H ++ H')) : Justified P H := by
  rintro H₁ e H₂ rfl
  exact h H₁ e (H₂ ++ H') (by simp)

theorem Justified.last {P : List ε → ε → Prop} {H : List ε} {e : ε}
    (h : Justified P (H ++ [e])) : P H e :=
  h H e [] rfl

/-- A history is justified if what is observed of it is. -/
theorem Justified.of_filterMap {P : List ο → ο → Prop} {observe : ε → Option ο}
    {H : List ε} (h : Justified P (H.filterMap observe)) :
    Justified (fun H e => ∀ o, observe e = some o → P (H.filterMap observe) o)
      H := by
  intro H₁ e H₂ hH o ho
  apply h (H₁.filterMap observe) o (H₂.filterMap observe)
  rw [hH, List.filterMap_append, List.filterMap_cons_some ho]

/-! ## Events that stand -/

/-- An event of the kind `made` happened, and none of the kind `ended` has
happened since. -/
def Standing (made ended : ε → Prop) (H : List ε) : Prop :=
  ∃ H₁ e H₂, H = H₁ ++ e :: H₂ ∧ made e ∧ ∀ e' ∈ H₂, ¬ ended e'

theorem not_standing_nil {made ended : ε → Prop} :
    ¬ Standing made ended [] := by
  rintro ⟨H₁, e, H₂, hsplit, -⟩
  simp at hsplit

/-- What stands was made by the last event, or stood before it. -/
theorem Standing.of_concat {made ended : ε → Prop} {H : List ε} {e : ε}
    (h : Standing made ended (H ++ [e])) :
    made e ∨ (Standing made ended H ∧ ¬ ended e) := by
  obtain ⟨H₁, e₁, H₂, hsplit, hmade, hended⟩ := h
  rcases List.eq_nil_or_concat H₂ with rfl | ⟨H₃, e₂, rfl⟩
  · left
    obtain rfl := List.singleton_inj.mp (List.append_inj' hsplit rfl).2
    exact hmade
  · right
    rw [List.concat_eq_append] at hsplit hended
    rw [← List.cons_append, ← List.append_assoc] at hsplit
    obtain ⟨rfl, hlast⟩ := List.append_inj' hsplit rfl
    obtain rfl := List.singleton_inj.mp hlast
    constructor
    · refine ⟨H₁, e₁, H₃, rfl, hmade, ?_⟩
      intro e' hmem
      exact hended e' (List.mem_append_left _ hmem)
    · exact hended e (by simp)

end TympanApo.Support
