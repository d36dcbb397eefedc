import TympanApo.Raw.Carriers

/-!
# References held and given back

COM's rule for clients is that they give back every reference they were handed
or have taken.  A ledger beside the DLL follows that rule from outside: it adds
a reference for every pointer a call leaves in an out slot and for every
`AddRef`, and takes one off for every `Release`.  In every run the ledger and
the reference counts agree, so an object lives as long as somebody holds it and
no longer, also where `QueryInterface` fails after the object was built.
-/

namespace TympanApo.ComServer

open TympanApo.Support

variable {com : ComLibrary} {registry : Kind → List ApoVTable}
    {s s' : Server} {a : Action} {es : List Event}

/-! ## The ledger of the clients -/

/-- How many references to each object the clients hold. -/
abbrev Ledger := Interface → ℕ

namespace Ledger

def receive (held : Ledger) : Option Interface → Ledger
  | some object => Function.update held object (held object + 1)
  | none => held

def giveBack (held : Ledger) : Option Interface → Ledger
  | some object => Function.update held object (held object - 1)
  | none => held

end Ledger

/-- The reference a call hands to its client: the pointer in the out slot. -/
def received (com : ComLibrary) (registry : Kind → List ApoVTable)
    (s : Server) : Action → Option Interface
  | .getClassObject kind rclsid riid ppv =>
      (s.dllGetClassObjectDispatch com kind rclsid riid ppv
        (registry kind)).slot.join
  | .createInstance factory punkOuter riid ppvObject =>
      match s.factories.get? factory with
      | none => none
      | some self =>
          (createInstanceOf com s self punkOuter riid ppvObject).slot.join
  | .addRef object => some object
  | .lockServer _ _ => none
  | .release _ => none
  | .invoke _ _ => none
  | .canUnloadNow => none

/-- The reference a client gives back. -/
def givenBack : Action → Option Interface
  | .release object => some object
  | _ => none

/-- The object a call is made through. -/
def calledThrough : Action → Option Interface
  | .createInstance factory _ _ _ => some (.factory factory)
  | .lockServer factory _ => some (.factory factory)
  | .addRef object => some object
  | .release object => some object
  | .invoke carrier _ => some (.carrier carrier)
  | .getClassObject _ _ _ _ => none
  | .canUnloadNow => none

/-- The DLL together with the ledger of its clients. -/
def clients (com : ComLibrary) (registry : Kind → List ApoVTable) :
    Machine (Server × Ledger) Action Event where
  init := (Server.loaded, fun _ => 0)
  step := fun (s, held) a =>
    (step com registry s a).map fun (s', es) =>
      ((s', (held.receive (received com registry s a)).giveBack (givenBack a)),
        es)

/-! ## The reference counts -/

/-- The reference count of an object. -/
def Server.refs (s : Server) : Ledger
  | .factory place => s.factories.refs place
  | .carrier place => s.carriers.refs place

theorem Server.refs_factory (s : Server) (place : ℕ) :
    s.refs (.factory place) = s.factories.refs place :=
  rfl

theorem Server.refs_carrier (s : Server) (place : ℕ) :
    s.refs (.carrier place) = s.carriers.refs place :=
  rfl

theorem Server.refs_congr (hfactories : s'.factories.refs = s.factories.refs)
    (hcarriers : s'.carriers.refs = s.carriers.refs) : s'.refs = s.refs := by
  funext object
  cases object with
  | factory place => exact congrFun hfactories place
  | carrier place => exact congrFun hcarriers place

theorem Server.refs_update_factory {place n : ℕ}
    (hfactories : s'.factories.refs =
      Function.update s.factories.refs place n)
    (hcarriers : s'.carriers.refs = s.carriers.refs) :
    s'.refs = Function.update s.refs (.factory place) n := by
  funext object
  rw [Function.update_apply]
  cases object with
  | factory other =>
      rw [s'.refs_factory, hfactories, Function.update_apply]
      simp only [Interface.factory.injEq]
      rfl
  | carrier other =>
      rw [if_neg nofun]
      exact congrFun hcarriers other

theorem Server.refs_update_carrier {place n : ℕ}
    (hfactories : s'.factories.refs = s.factories.refs)
    (hcarriers : s'.carriers.refs =
      Function.update s.carriers.refs place n) :
    s'.refs = Function.update s.refs (.carrier place) n := by
  funext object
  rw [Function.update_apply]
  cases object with
  | factory other =>
      rw [if_neg nofun]
      exact congrFun hfactories other
  | carrier other =>
      rw [s'.refs_carrier, hcarriers, Function.update_apply]
      simp only [Interface.carrier.injEq]
      rfl

/-- An object is alive: a call through it reaches it. -/
def Server.Alive (s : Server) : Interface → Prop
  | .factory place => (s.factories.get? place).isSome
  | .carrier place => (s.carriers.get? place).isSome

theorem Server.alive_iff (s : Server) (object : Interface) :
    s.Alive object ↔ 0 < s.refs object := by
  cases object with
  | factory place => exact Pool.isSome_get?_iff
  | carrier place => exact Pool.isSome_get?_iff

/-! ## What a call does to the counts -/

theorem Server.releaseCarrier_refs (s : Server) (place : ℕ) :
    (s.releaseCarrier place).1.refs =
      Function.update s.refs (.carrier place) (s.refs (.carrier place) - 1) := by
  unfold Server.releaseCarrier
  split <;> exact Server.refs_update_carrier rfl (Pool.refs_release _ _)

theorem Server.lockServer_refs (s : Server) (place : ℕ) (fLock : Bool) :
    (s.lockServer place fLock).refs = s.refs := by
  apply Server.refs_congr
  · rw [Server.lockServer, Pool.refs_update]
  · rfl

/-- The reference of a new carrier is the first. -/
theorem Server.createCarrier_refs (s : Server) (self : ApoClassFactory) :
    (s.createCarrier self).refs =
      s.refs.receive (some (.carrier s.carriers.length)) := by
  have hnew : s.refs (.carrier s.carriers.length) = 0 := s.carriers.refs_length
  rw [Ledger.receive, hnew]
  exact Server.refs_update_carrier rfl (Pool.refs_alloc _ _)

theorem ClassObjectOutcome.refs {kind : Kind} {rclsid riid : Option Guid}
    {ppv : Option Slot} {vtables : List ApoVTable} {called : Called HResult}
    (h : ClassObjectOutcome com kind s rclsid riid ppv vtables called) :
    called.server.refs = s.refs.receive called.slot.join := by
  cases h with
  | refused _ hslot hserver =>
      rw [hserver, hslot]
      cases ppv with
      | none => rfl
      | some slot => rfl
  | queried clsid v _ _ _ _ hslot hserver =>
      have hnew : s.refs (.factory s.factories.length) = 0 :=
        s.factories.refs_length
      rw [hserver, hslot, Option.join_some, Ledger.receive, hnew]
      exact Server.refs_update_factory (Pool.refs_alloc _ _) rfl
  | notQueried clsid v _ _ _ _ hslot hserver =>
      rw [hserver, hslot]
      exact Server.refs_congr (Pool.refs_release_alloc _ _) rfl

theorem CreateOutcome.refs {self : ApoClassFactory} {riid : Option Guid}
    {ppvObject : Option Slot} {called : Called (Except ComError Unit)}
    (h : CreateOutcome com s self riid ppvObject called) :
    called.server.refs = s.refs.receive called.slot.join := by
  cases h with
  | refused _ _ hslot hserver _ =>
      rw [hserver, hslot]
      cases ppvObject with
      | none => rfl
      | some slot => rfl
  | queried _ _ hslot hserver _ =>
      rw [hserver, hslot, s.createCarrier_refs self]
      rfl
  | notQueried _ _ hslot hserver _ =>
      -- The local reference was the only one.
      rw [hserver, hslot, Server.releaseCarrier_refs, s.createCarrier_refs self,
        Ledger.receive, Function.update_self, Function.update_idem]
      exact Function.update_eq_self _ _

/-- A call changes the counts by what it hands out and what it takes back. -/
theorem refs_of_step (h : step com registry s a = some (s', es)) :
    s'.refs = (s.refs.receive (received com registry s a)).giveBack
      (givenBack a) := by
  cases step_transition h with
  | classObject kind rclsid riid ppv called hcalled =>
      rw [hcalled]
      exact (dllGetClassObjectDispatch_outcome com kind s rclsid riid ppv
        (registry kind)).refs
  | create factory self punkOuter riid ppvObject called hlive houtcome =>
      simp only [step, hlive, Option.some.injEq, Prod.mk.injEq] at h
      rw [← h.1]
      simp only [received, hlive]
      exact (createInstanceOf_outcome com s self punkOuter riid ppvObject).refs
  | lockServer factory self fLock hlive hmatched =>
      exact s.lockServer_refs factory fLock
  | addRefFactory place self hlive =>
      exact Server.refs_update_factory (Pool.refs_addRef hlive) rfl
  | addRefCarrier place carrier hlive =>
      exact Server.refs_update_carrier rfl (Pool.refs_addRef hlive)
  | releaseFactory place self hlive =>
      exact Server.refs_update_factory (Pool.refs_release _ _) rfl
  | releaseCarrier place carrier hlive => exact s.releaseCarrier_refs place
  | invoke place carrier call hlive => exact Server.refs_congr rfl rfl
  | canUnloadNow => rfl

/-! ## Every call is served, and every carrier dropped once -/

/-- A carrier was dropped. -/
def Event.isDrop : Event → Bool
  | .outstandingDec _ _ => true
  | .canUnloadReturned _ _ _ => false

/-- Carriers built are alive or dropped. -/
def DropsCounted (s : Server) (drops : ℕ) : Prop :=
  drops + s.carriers.live = s.carriers.length

theorem DropsCounted.createCarrier {drops : ℕ} (h : DropsCounted s drops)
    (self : ApoClassFactory) : DropsCounted (s.createCarrier self) drops := by
  rw [DropsCounted, s.createCarrier_carriers self, Pool.live_alloc, Pool.alloc,
    List.length_append, ← Nat.add_assoc, h]
  rfl

theorem DropsCounted.releaseCarrier {drops place : ℕ} {carrier : ApoInstanceCom}
    (h : DropsCounted s drops) (hlive : s.carriers.get? place = some carrier) :
    DropsCounted (s.releaseCarrier place).1
      (drops + (s.releaseCarrier place).2.countP Event.isDrop) := by
  have hlength : (s.carriers.release place).length = s.carriers.length :=
    List.length_modify _ _ _
  unfold Server.releaseCarrier
  by_cases hlast : s.carriers.isLast place = true
  · have hdropped := Pool.live_release_of_last hlast
    simp only [hlast, if_true, DropsCounted, Server.outstandingDec, hlength]
    rw [← h, ← hdropped, Nat.add_assoc, Nat.add_comm _ 1]
    rfl
  · rw [Bool.not_eq_true] at hlast
    have hkept := Pool.live_release_of_not_last hlive hlast
    simp only [hlast, Bool.false_eq_true, if_false, DropsCounted, hlength,
      hkept]
    exact h

theorem DropsCounted.transition {drops : ℕ} (h : DropsCounted s drops)
    (htransition : Transition com registry s a s' es) :
    DropsCounted s' (drops + es.countP Event.isDrop) := by
  cases htransition with
  | classObject kind rclsid riid ppv called hcalled =>
      obtain ⟨-, hcarriers, -, hevents⟩ :=
        s.dllGetClassObjectDispatch_frame com kind rclsid riid ppv (registry kind)
      rw [← hcalled] at hcarriers hevents
      rw [DropsCounted, hcarriers, hevents]
      exact h
  | create factory self punkOuter riid ppvObject called hlive houtcome =>
      cases houtcome with
      | refused _ _ _ hserver hevents =>
          rw [hserver, hevents]
          exact h
      | queried _ _ _ hserver hevents =>
          rw [hserver, hevents]
          exact h.createCarrier self
      | notQueried _ _ _ hserver hevents =>
          rw [hserver, hevents]
          exact (h.createCarrier self).releaseCarrier
            (s.get?_createCarrier self)
  | addRefCarrier place carrier hlive =>
      have hlength : (s.carriers.addRef place).length = s.carriers.length :=
        List.length_modify _ _ _
      have hkept := Pool.live_addRef hlive
      rw [DropsCounted, Server.addRefCarrier, hlength, hkept]
      exact h
  | releaseCarrier place carrier hlive => exact h.releaseCarrier hlive
  | lockServer => exact h
  | addRefFactory => exact h
  | releaseFactory => exact h
  | invoke => exact h
  | canUnloadNow => exact h

/-- `LockServer(FALSE)` goes to a factory that a `LockServer(TRUE)` still
locks. -/
def Server.Matched (s : Server) (a : Action) : Prop :=
  ∀ factory self, a = .lockServer factory false →
    s.factories.get? factory = some self → self.pendingLocks ≠ 0

/-- A call is served when the object it is made through is alive; an unlock
also needs a lock before it. -/
theorem step_isSome (halive : ∀ object ∈ calledThrough a, s.Alive object)
    (hmatched : s.Matched a) :
    (step com registry s a).isSome := by
  cases a with
  | getClassObject kind rclsid riid ppv => rfl
  | createInstance factory punkOuter riid ppvObject =>
      obtain ⟨self, hself⟩ := Option.isSome_iff_exists.mp (halive _ rfl)
      simp only [step, hself, Option.isSome_some]
  | lockServer factory fLock =>
      obtain ⟨self, hself⟩ := Option.isSome_iff_exists.mp (halive _ rfl)
      cases fLock with
      | false =>
          have hlocked := hmatched factory self rfl hself
          simp only [step, hself, if_pos (Or.inr hlocked), Option.isSome_some]
      | true => simp [step, hself]
  | addRef object =>
      cases object with
      | factory place =>
          obtain ⟨self, hself⟩ := Option.isSome_iff_exists.mp (halive _ rfl)
          simp only [step, hself, Option.isSome_some]
      | carrier place =>
          obtain ⟨self, hself⟩ := Option.isSome_iff_exists.mp (halive _ rfl)
          simp only [step, hself, Option.isSome_some]
  | release object =>
      cases object with
      | factory place =>
          obtain ⟨self, hself⟩ := Option.isSome_iff_exists.mp (halive _ rfl)
          simp only [step, hself, Option.isSome_some]
      | carrier place =>
          obtain ⟨self, hself⟩ := Option.isSome_iff_exists.mp (halive _ rfl)
          simp only [step, hself, Option.isSome_some]
  | invoke carrier call =>
      obtain ⟨self, hself⟩ := Option.isSome_iff_exists.mp (halive _ rfl)
      simp only [step, hself, Option.isSome_some]
  | canUnloadNow => rfl

/-! ## The contract -/

/-- What a run with history `H` promises to clients who hold `held`. -/
structure ReferencesKept (com : ComLibrary)
    (registry : Kind → List ApoVTable) (H : List Event) (s : Server)
    (held : Ledger) : Prop where
  counted : s.refs = held
  alive : ∀ object, s.Alive object ↔ 0 < held object
  served : ∀ a, (∀ object ∈ calledThrough a, 0 < held object) →
    s.Matched a → (step com registry s a).isSome
  dropped : H.countP Event.isDrop + s.carriers.live = s.carriers.length
  unload : s.carriers.live < 2 ^ 32 →
    (s.dllCanUnloadNowDispatch = HResult.sOk ↔
      ∀ place, held (.carrier place) = 0)
  settled : (∀ place, held (.carrier place) = 0) →
    H.countP Event.isDrop = s.carriers.length ∧ s.outstanding = 0

/-- What the run rule carries: the ledger, the counter and the drops. -/
structure Balanced (H : List Event) (s : Server) (held : Ledger) : Prop where
  refs : s.refs = held
  counts : Counts s
  drops : DropsCounted s (H.countP Event.isDrop)

theorem balanced_loaded : Balanced [] Server.loaded fun _ => 0 where
  refs := by
    funext object
    cases object with
    | factory place => rfl
    | carrier place => rfl
  counts := rfl
  drops := rfl

theorem Balanced.step {H : List Event} {held : Ledger}
    (h : Balanced H s held) (hstep : step com registry s a = some (s', es)) :
    Balanced (H ++ es) s'
      ((held.receive (received com registry s a)).giveBack (givenBack a)) where
  refs := by
    rw [← h.refs]
    exact refs_of_step hstep
  counts := (h.counts.transition (step_transition hstep)).1
  drops := by
    rw [List.countP_append]
    exact h.drops.transition (step_transition hstep)

theorem balanced_of_reaches {H : List Event} {c : Server × Ledger}
    (h : (clients com registry).Reaches H c) : Balanced H c.1 c.2 := by
  refine h.invariant (I := fun H c => Balanced H c.1 c.2) balanced_loaded ?_
  intro H es c c' a hbalanced _ hstep
  obtain ⟨⟨s', es'⟩, hserver, hledger⟩ := Option.map_eq_some_iff.mp hstep
  obtain ⟨rfl, rfl⟩ := Prod.mk.inj hledger
  exact hbalanced.step hserver

theorem Balanced.live_eq_zero_iff {H : List Event} {held : Ledger}
    (h : Balanced H s held) :
    s.carriers.live = 0 ↔ ∀ place, held (.carrier place) = 0 := by
  rw [← h.refs]
  exact Pool.live_eq_zero_iff

/-- In every run the references the clients hold are the references counted:
nothing they hold is gone, nothing they gave back stays, and every carrier is
dropped once. -/
theorem referencesKept_of_reaches {H : List Event} {held : Ledger}
    (h : (clients com registry).Reaches H (s, held)) :
    ReferencesKept com registry H s held := by
  have hbalanced : Balanced H s held := balanced_of_reaches h
  have halive : ∀ object, s.Alive object ↔ 0 < held object := by
    intro object
    rw [s.alive_iff, hbalanced.refs]
  constructor
  case counted => exact hbalanced.refs
  case alive => exact halive
  case served =>
    intro a hheld hmatched
    apply step_isSome _ hmatched
    intro object hobject
    exact (halive object).mpr (hheld object hobject)
  case dropped => exact hbalanced.drops
  case unload =>
    intro hbound
    rw [hbalanced.counts.canUnload_iff, Nat.mod_eq_of_lt hbound]
    exact hbalanced.live_eq_zero_iff
  case settled =>
    intro hnone
    have hlive := hbalanced.live_eq_zero_iff.mpr hnone
    have hdrops := hbalanced.drops
    have hcounts := hbalanced.counts
    rw [DropsCounted, hlive, Nat.add_zero] at hdrops
    rw [Counts, hlive] at hcounts
    exact ⟨hdrops, hcounts⟩

/-- A carrier outlives its factory, and goes with the second of the two
references taken. -/
theorem referencesKept_passthrough :
    ∃ H s held, ReferencesKept answeringCom passthroughRegistry H s held ∧
      H.countP Event.isDrop = 1 ∧ held (.factory 0) = 0 ∧ s.outstanding = 0 := by
  have hreach : (clients answeringCom passthroughRegistry).Reaches _ (_, _) :=
    Machine.reaches_of_exec
      [.getClassObject .siso (some passthrough.clsid.toGuid)
          (some passthrough.clsid.toGuid) (some none),
        .createInstance 0 none (some passthrough.clsid.toGuid) (some none),
        .release (.factory 0), .addRef (.carrier 0), .release (.carrier 0),
        .release (.carrier 0)]
      rfl
  exact ⟨_, _, _, referencesKept_of_reaches hreach, by decide, by decide,
    by decide⟩

end TympanApo.ComServer
