import TympanApo.FxProperties

/-!
# Endpoint bindings as a map

Over calls that succeed, writing and clearing endpoint bindings behaves as a
map from slots to classes.  Clearing opens the key of the endpoint with the
helper of the write path, which creates what is missing.
-/

namespace TympanApo.FxProperties

open TympanApo.Support
open TympanApo.Win32

/-- What a hive stores in a slot. -/
def stored (hive : Hive) (q : Slot) : Option RegData :=
  hive.value q.key q.name

/-- Setting the value of a slot, seen from the slots. -/
theorem stored_update {hive : Hive} {q : Slot} (h : hive.HasKey q.key)
    (content : Option RegData) :
    stored (hive.update q.key q.name content) =
      Function.update (stored hive) q content := by
  funext q'
  by_cases hq : q' = q
  · subst hq
    rw [Function.update_self]
    exact Registry.value_update_self h _ _
  · rw [Function.update_of_ne hq]
    exact Registry.value_update_of_ne
      (fun heq => hq (slot_injective heq)) content

theorem stored_createKey (hive : Hive) (path : HKey) :
    stored (hive.createKey path) = stored hive := by
  funext q
  exact Registry.value_createKey hive path q.key q.name

/-! ## Writes and clears -/

/-- A call of one of the two functions. -/
inductive Op
  | write (q : Slot) (c : Clsid)
  | clear (q : Slot)

def Op.slot : Op → Slot
  | .write q _ => q
  | .clear q => q

/-- The class that a call leaves in its slot. -/
def Op.binding : Op → Option Clsid
  | .write _ c => some c
  | .clear _ => none

/-- A call whose registry calls succeed. -/
def Op.perform : Op → System → System × Except Failure Unit
  | .write q c, s =>
      writeEndpointBinding .ok .ok q.kind q.endpointId q.fmtid q.pid c s
  | .clear q, s =>
      clearEndpointBinding .ok .ok q.kind q.endpointId q.fmtid q.pid s

/-- Calls in turn. -/
def performAll (ops : List Op) (s : System) : System :=
  ops.foldl (fun s op => (op.perform s).1) s

/-- The abstract map from slots to classes. -/
abbrev Bindings := Slot → Option Clsid

/-- What a call does to the map. -/
def Op.apply (m : Bindings) (op : Op) : Bindings :=
  Function.update m op.slot op.binding

/-- The hive stores exactly the bindings of the map. -/
def Stores (hive : Hive) (m : Bindings) : Prop :=
  ∀ q, stored hive q = (m q).map bindingData

theorem Op.perform_ok (op : Op) (s : System) : (op.perform s).2 = .ok () := by
  cases op with
  | write q c => rw [Op.perform, writeEndpointBinding_ok]
  | clear q => rw [Op.perform, clearEndpointBinding_ok]

/-- One call sets its slot and no other. -/
theorem Op.stored_perform (op : Op) (s : System) :
    stored (op.perform s).1.hive =
      Function.update (stored s.hive) op.slot
        (op.binding.map bindingData) := by
  have hopen := fun q : Slot => s.hive.hasKey_createKey_self q.key
  cases op with
  | write q c =>
      rw [Op.perform, writeEndpointBinding_ok,
        ← stored_createKey s.hive q.key]
      exact stored_update (hopen q) _
  | clear q =>
      rw [Op.perform, clearEndpointBinding_ok,
        ← stored_createKey s.hive q.key]
      exact stored_update (hopen q) _

theorem Stores.perform {s : System} {m : Bindings} (h : Stores s.hive m)
    (op : Op) : Stores (op.perform s).1.hive (op.apply m) := by
  intro q
  rw [op.stored_perform]
  by_cases hq : q = op.slot
  · subst hq
    rw [Op.apply, Function.update_self, Function.update_self]
  · rw [Op.apply, Function.update_of_ne hq, Function.update_of_ne hq, h q]

theorem Stores.performAll {s : System} {m : Bindings} (h : Stores s.hive m)
    (ops : List Op) :
    Stores (performAll ops s).hive (ops.foldl Op.apply m) := by
  induction ops generalizing s m with
  | nil => exact h
  | cons op ops ih => exact ih (h.perform op)

/-- Calls on other slots leave a slot as it is. -/
theorem stored_performAll_of_ne {ops : List Op} {q : Slot}
    (h : ∀ op ∈ ops, op.slot ≠ q) (s : System) :
    stored (performAll ops s).hive q = stored s.hive q := by
  induction ops generalizing s with
  | nil => rfl
  | cons op ops ih =>
      obtain ⟨hfirst, hrest⟩ := List.forall_mem_cons.mp h
      rw [performAll, List.foldl_cons]
      refine (ih hrest _).trans ?_
      rw [op.stored_perform, Function.update_of_ne hfirst.symm]

/-- The last call on a slot decides what it stores. -/
theorem stored_performAll_of_last (before : List Op) (op : Op)
    {after : List Op} (h : ∀ op' ∈ after, op'.slot ≠ op.slot) (s : System) :
    stored (performAll (before ++ op :: after) s).hive op.slot =
      op.binding.map bindingData := by
  rw [performAll, List.foldl_append, List.foldl_cons]
  refine (stored_performAll_of_ne h _).trans ?_
  rw [op.stored_perform, Function.update_self]

/-- What a sequence of calls leaves in the slots. -/
structure RefinesMap (ops : List Op) (before after : Hive) : Prop where
  simulates : ∀ m, Stores before m → Stores after (ops.foldl Op.apply m)
  /-- The last class written and not since cleared is stored. -/
  written : ∀ q c earlier later, ops = earlier ++ .write q c :: later →
    (∀ op ∈ later, op.slot ≠ q) → stored after q = some (bindingData c)
  cleared : ∀ q earlier later, ops = earlier ++ .clear q :: later →
    (∀ op ∈ later, op.slot ≠ q) → stored after q = none
  untouched : ∀ q, (∀ op ∈ ops, op.slot ≠ q) →
    stored after q = stored before q

/-- For every hive and every sequence of writes and clears, each call succeeds
and leaves the other slots alone, the slots hold what the map holds, and
different classes are stored as different bytes. -/
theorem bindings_refine (ops : List Op) (s : System) :
    RefinesMap ops s.hive (performAll ops s).hive ∧
      (∀ (op : Op) (s' : System), (op.perform s').2 = .ok () ∧
        ∀ q, q ≠ op.slot →
          stored (op.perform s').1.hive q = stored s'.hive q) ∧
      Function.Injective serializeClsidProperty := by
  refine ⟨⟨fun m h => h.performAll ops, ?_, ?_, ?_⟩, ?_,
    serializeClsidProperty_injective⟩
  · rintro q c earlier later rfl hlast
    exact stored_performAll_of_last earlier (.write q c) hlast s
  · rintro q earlier later rfl hlast
    exact stored_performAll_of_last earlier (.clear q) hlast s
  · intro q hnone
    exact stored_performAll_of_ne hnone s
  · intro op s'
    refine ⟨op.perform_ok s', fun q hq => ?_⟩
    rw [op.stored_perform, Function.update_of_ne hq]

/-! ## What clearing adds -/

/-- A call of `clear_endpoint_binding` takes one value away and nothing
else. -/
structure AddsNothing (q : Slot) (create : CreateOutcome) (delete : Outcome)
    (s : System) (out : System × Except Failure Unit) : Prop where
  keys : ∀ p, out.1.hive.HasKey p ↔ s.hive.HasKey p
  others : ∀ p n, (p, n) ≠ (q.key, q.name) →
    out.1.hive.value p n = s.hive.value p n
  absent : out.2 = .ok () → stored out.1.hive q = none
  /-- Clearing what was never bound does nothing and is answered by `Ok`, the
  first time and the next. -/
  unbound : stored s.hive q = none →
    out.1.hive = s.hive ∧ out.2 = .ok () ∧
      (clearEndpointBinding create delete q.kind q.endpointId q.fmtid q.pid
        out.1).1.hive = s.hive ∧
      (clearEndpointBinding create delete q.kind q.endpointId q.fmtid q.pid
        out.1).2 = .ok ()

/-- The failures that are not answered: only an opening refused with
`E_INVALIDARG`, which stands for a missing key. -/
def Swallowed (create : CreateOutcome) (delete : Outcome) : Prop :=
  match create with
  | .ok => delete = .ok
  | .failed e _ => e.code = HResult.eInvalidarg

theorem clear_answer_iff (q : Slot) (create : CreateOutcome)
    (delete : Outcome) (s : System) :
    (clearEndpointBinding create delete q.kind q.endpointId q.fmtid q.pid
        s).2 = .ok () ↔ Swallowed create delete := by
  cases create with
  | failed e made =>
      rw [clearEndpointBinding_create_failed, Swallowed]
      by_cases hcode : e.code = HResult.eInvalidarg
      · exact iff_of_true (if_pos hcode) hcode
      · simp [hcode]
  | ok =>
      cases delete with
      | failed e => simp [clearEndpointBinding_delete_failed, Swallowed]
      | ok => simp [clearEndpointBinding_ok, Swallowed]

/-- What clearing makes of the hive: it opens the key, and then deletes the
value unless a call failed. -/
theorem clear_hive (q : Slot) (create : CreateOutcome) (delete : Outcome)
    (s : System) :
    ∃ content, (content = stored s.hive q ∨ content = none) ∧
      (clearEndpointBinding create delete q.kind q.endpointId q.fmtid q.pid
        s).1.hive =
        (s.hive.createKey (create.opened q.key)).update q.key q.name content := by
  have hsame : ∀ path, (s.hive.createKey path).update q.key q.name
      (stored s.hive q) = s.hive.createKey path := by
    intro path
    rw [← stored_createKey s.hive path]
    exact Registry.update_value_self _ _ _
  cases create with
  | failed e made =>
      refine ⟨_, Or.inl rfl, ?_⟩
      rw [clearEndpointBinding_create_failed, hsame]
      rfl
  | ok =>
      cases delete with
      | failed e =>
          refine ⟨_, Or.inl rfl, ?_⟩
          rw [clearEndpointBinding_delete_failed, hsame]
          rfl
      | ok => exact ⟨none, Or.inr rfl, by rw [clearEndpointBinding_ok]; rfl⟩

/-- Whatever fails, the keys afterwards are those before and the key opened. -/
theorem hasKey_clear (q : Slot) (create : CreateOutcome) (delete : Outcome)
    (s : System) (p : HKey) :
    (clearEndpointBinding create delete q.kind q.endpointId q.fmtid q.pid
        s).1.hive.HasKey p ↔
      p <+: create.opened q.key ∨ s.hive.HasKey p := by
  obtain ⟨content, -, hhive⟩ := clear_hive q create delete s
  rw [hhive, Registry.hasKey_update, Registry.hasKey_createKey]

theorem value_clear_of_ne (q : Slot) (create : CreateOutcome)
    (delete : Outcome) (s : System) {p : HKey} {n : Name}
    (h : (p, n) ≠ (q.key, q.name)) :
    (clearEndpointBinding create delete q.kind q.endpointId q.fmtid q.pid
        s).1.hive.value p n = s.hive.value p n := by
  obtain ⟨content, -, hhive⟩ := clear_hive q create delete s
  rw [hhive, Registry.value_update_of_ne h, Registry.value_createKey]

/-- When no call fails, the value is gone. -/
theorem stored_clear_ok (q : Slot) (s : System) :
    stored (clearEndpointBinding .ok .ok q.kind q.endpointId q.fmtid q.pid
      s).1.hive q = none := by
  rw [clearEndpointBinding_ok]
  exact Registry.value_update_self (s.hive.hasKey_createKey_self q.key) _ _

/-- Clearing an empty slot under a key that exists. -/
theorem clear_of_unbound {q : Slot} {create : CreateOutcome}
    {delete : Outcome} {s : System} (hkey : s.hive.HasKey (create.opened q.key))
    (hnone : stored s.hive q = none) :
    (clearEndpointBinding create delete q.kind q.endpointId q.fmtid q.pid
      s).1.hive = s.hive := by
  obtain ⟨content, hcontent, hhive⟩ := clear_hive q create delete s
  have hempty : content = stored s.hive q := by
    rcases hcontent with hsame | hgone
    · exact hsame
    · rw [hgone, hnone]
  rw [hhive, Registry.createKey_eq_self_iff.mpr hkey, hempty]
  exact Registry.update_value_self _ _ _

/-- When the answer is `Ok`, the value is gone, unless `E_INVALIDARG` of the
opening call was taken for a missing key. -/
theorem stored_clear_of_answer {q : Slot} {create : CreateOutcome}
    {delete : Outcome} {s : System}
    (hrefused : ∀ e made, create = .failed e made →
      e.code = HResult.eInvalidarg → stored s.hive q = none)
    (hanswer : (clearEndpointBinding create delete q.kind q.endpointId q.fmtid
      q.pid s).2 = .ok ()) :
    stored (clearEndpointBinding create delete q.kind q.endpointId q.fmtid
      q.pid s).1.hive q = none := by
  cases create with
  | failed e made =>
      rw [clearEndpointBinding_create_failed] at hanswer ⊢
      split at hanswer
      next hcode =>
        rw [if_pos hcode, stored_createKey]
        exact hrefused e made rfl hcode
      next => cases hanswer
  | ok =>
      cases delete with
      | failed e =>
          rw [clearEndpointBinding_delete_failed] at hanswer
          cases hanswer
      | ok => exact stored_clear_ok q s

/-- For every hive, every slot and every outcome of the calls: clearing adds
nothing if and only if the key it opens was there, the opening call does not
fail with `E_INVALIDARG` while the value is there, and no call fails otherwise
while the value is not there. -/
theorem addsNothing_iff (q : Slot) (create : CreateOutcome) (delete : Outcome)
    (s : System) :
    AddsNothing q create delete s
        (clearEndpointBinding create delete q.kind q.endpointId q.fmtid q.pid
          s) ↔
      s.hive.HasKey (create.opened q.key) ∧
        (∀ e made, create = .failed e made → e.code = HResult.eInvalidarg →
          stored s.hive q = none) ∧
        (stored s.hive q = none → Swallowed create delete) := by
  constructor
  · intro h
    refine ⟨?_, ?_, ?_⟩
    · exact (h.keys _).mp
        ((hasKey_clear q create delete s _).mpr (Or.inl List.prefix_rfl))
    · rintro e made rfl hcode
      have habsent := h.absent
      rw [clearEndpointBinding_create_failed, if_pos hcode] at habsent
      rw [← stored_createKey s.hive (q.key.take made)]
      exact habsent rfl
    · intro hnone
      exact (clear_answer_iff q create delete s).mp (h.unbound hnone).2.1
  · rintro ⟨hkey, hrefused, hswallowed⟩
    refine ⟨fun p => ?_, fun p n hne => value_clear_of_ne q create delete s hne,
      stored_clear_of_answer hrefused, ?_⟩
    · rw [hasKey_clear]
      exact or_iff_right_of_imp fun hp => hkey.of_prefix hp
    · intro hnone
      have hanswer := fun s' : System =>
        (clear_answer_iff q create delete s').mpr (hswallowed hnone)
      have hhive : (clearEndpointBinding create delete q.kind q.endpointId
          q.fmtid q.pid s).1.hive = s.hive := clear_of_unbound hkey hnone
      refine ⟨hhive, hanswer s, ?_, hanswer _⟩
      rw [← hhive] at hkey hnone
      exact (clear_of_unbound hkey hnone).trans hhive

/-- On a hive without keys, clearing creates the key of the endpoint. -/
theorem not_addsNothing_empty :
    let q : Slot :=
      { kind := .capture, endpointId := Clsid.fromU128 1
        fmtid := Clsid.fromU128 2, pid := 0 }
    let s : System := { hive := Registry.empty, failures := [] }
    ¬ AddsNothing q .ok .ok s
      (clearEndpointBinding .ok .ok q.kind q.endpointId q.fmtid q.pid s) := by
  intro q s h
  have hmade : (clearEndpointBinding .ok .ok q.kind q.endpointId q.fmtid q.pid
      s).1.hive.HasKey q.key :=
    (hasKey_clear q .ok .ok s q.key).mpr (Or.inl List.prefix_rfl)
  have hkey : s.hive.HasKey q.key := (h.keys q.key).mp hmade
  have hroot : q.key = [] := by
    by_contra hne
    simp [s, Registry.HasKey, Registry.empty, hne] at hkey
  rw [q.key_eq] at hroot
  simp at hroot

end TympanApo.FxProperties
