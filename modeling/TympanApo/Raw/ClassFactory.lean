import TympanApo.Instance.Lifecycle
import TympanApo.Support.Pool

/-!
# Class factories and instance carriers

`raw/class_factory.rs`, the carrier of `raw/instance_com.rs`, the counter of
`raw/exports.rs` and their AEC twins, over the state of one loaded DLL: the
instances on the heap, the COM objects with their reference counts, and the
process-wide counter.  `AecApoInstance` holds nothing but an `ApoInstance`, and
the two factories differ in one message, so the two paths share one body.
-/

namespace TympanApo.ComServer

open TympanApo.Realtime
open TympanApo.Support

inductive Kind
  | siso
  | aec
  deriving DecidableEq

/-! ## Instances and vtables -/

/-- `dyn AnyApoInstance`: an instance over user states of its own type. -/
structure AnyApoInstance where
  {σ : Type}
  T : ProcessingObject σ
  inst : ApoInstance σ

/-- Every instance allocated so far.  An `Arc` is the place of its instance. -/
abbrev InstanceHeap := List AnyApoInstance

/-- `ApoVTable` and `AecApoVTable`. -/
structure ApoVTable where
  clsid : Clsid
  name : String
  copyright : String
  category : ApoCategory
  create : InstanceHeap → InstanceHeap × ℕ

/-- `__tympan_apo_create` and `__tympan_aec_apo_create`. -/
def tympanApoCreate {σ : Type} (T : ProcessingObject σ) (heap : InstanceHeap) :
    InstanceHeap × ℕ :=
  (heap ++ [{ T, inst := ApoInstance.new T }], heap.length)

/-- The vtable that `register_apo!` and `register_aec_apo!` emit. -/
def registerApo {σ : Type} (T : ProcessingObject σ) : ApoVTable where
  clsid := T.clsid
  name := T.name
  copyright := T.copyright
  category := T.category
  create := tympanApoCreate T

/-- The creator of a vtable is one that the macros emit. -/
def ApoVTable.Emitted (v : ApoVTable) : Prop :=
  ∃ (σ : Type) (T : ProcessingObject σ), v.create = tympanApoCreate T

/-! ## COM objects -/

/-- `ApoClassFactory` and `AecApoClassFactory`.  The last field is not in the
code: it counts the `LockServer(TRUE)` calls not yet matched. -/
structure ApoClassFactory where
  kind : Kind
  serverLock : Refcount
  vtable : ApoVTable
  pendingLocks : ℕ

/-- `ApoClassFactory::new`. -/
def ApoClassFactory.new (kind : Kind) (vtable : ApoVTable) :
    ApoClassFactory where
  kind := kind
  serverLock := Refcount.new
  vtable := vtable
  pendingLocks := 0

/-- `ApoInstanceCom` and `AecApoInstanceCom`. -/
structure ApoInstanceCom where
  kind : Kind
  arc : ℕ

/-- A pointer to an interface of a COM object. -/
inductive Interface
  | factory (place : ℕ)
  | carrier (place : ℕ)
  deriving DecidableEq

/-- What an out pointer points to; `none` is a null pointer in the slot. -/
abbrev Slot := Option Interface

inductive ObjectClass
  | factory
  | carrier
  deriving DecidableEq

/-- What a `QueryInterface` call does to the slot. -/
inductive Stored
  | untouched
  | null
  | interface
  deriving DecidableEq

/-- The part of `windows_core` that is not the framework's: the answer of
`QueryInterface` on an object of a class. -/
structure ComLibrary where
  query : ObjectClass → Kind → Option Guid → HResult × Stored

/-- `QueryInterface` as COM documents it: an interface is stored if and only if
the call succeeds. -/
structure ComLibrary.Documented (com : ComLibrary) : Prop where
  stored_of_ok : ∀ cls kind riid, (com.query cls kind riid).1.isOk →
    (com.query cls kind riid).2 = .interface
  not_stored_of_err : ∀ cls kind riid, (com.query cls kind riid).1.isErr →
    (com.query cls kind riid).2 ≠ .interface

/-- The slot after a query of the object behind `self`. -/
def Stored.into (stored : Stored) (self : Interface) (slot : Slot) : Slot :=
  match stored with
  | .untouched => slot
  | .null => none
  | .interface => some self

/-! ## The DLL -/

/-- What a step makes known: the counter and the number of live carriers when
a carrier is dropped, and an answer of `DllCanUnloadNow` with the number of
live carriers and whether a server lock is outstanding. -/
inductive Event
  | outstandingDec (before : UInt32) (alive : ℕ)
  | canUnloadReturned (hr : HResult) (alive : ℕ) (locked : Bool)

/-- The state of one loaded DLL. -/
structure Server where
  outstanding : UInt32
  instances : InstanceHeap
  factories : Pool ApoClassFactory
  carriers : Pool ApoInstanceCom

/-- What a call returns, the out slot it leaves and what it does. -/
structure Called (ρ : Type) where
  answer : ρ
  slot : Option Slot
  server : Server
  events : List Event

namespace Server

/-- A DLL just loaded. -/
def loaded : Server where
  outstanding := 0
  instances := []
  factories := []
  carriers := []

/-- `outstanding_inc`. -/
def outstandingInc (s : Server) : Server :=
  { s with outstanding := s.outstanding + 1 }

/-- `outstanding_dec`. -/
def outstandingDec (s : Server) : Server :=
  { s with outstanding := s.outstanding - 1 }

/-- `outstanding_count`. -/
def outstandingCount (s : Server) : UInt32 :=
  s.outstanding

/-- `ApoInstanceCom::new`, wrapped in a `ComObject` with one reference. -/
def newCarrier (s : Server) (carrier : ApoInstanceCom) : Server :=
  { s.outstandingInc with carriers := s.carriers.alloc carrier }

def addRefCarrier (s : Server) (place : ℕ) : Server :=
  { s with carriers := s.carriers.addRef place }

/-- `Release` on a carrier; its last reference drops it. -/
def releaseCarrier (s : Server) (place : ℕ) : Server × List Event :=
  let released := { s with carriers := s.carriers.release place }
  if s.carriers.isLast place then
    (released.outstandingDec,
      [.outstandingDec s.outstanding s.carriers.live])
  else
    (released, [])

/-- A new carrier around a new instance of the factory's vtable. -/
def createCarrier (s : Server) (self : ApoClassFactory) : Server :=
  let (instances, arc) := self.vtable.create s.instances
  { s with instances }.newCarrier { kind := self.kind, arc }

/-- `CreateInstance` of the factory `self`, with the factory's own message. -/
def createInstanceWith (noAggregation : String) (com : ComLibrary)
    (s : Server) (self : ApoClassFactory) (punkOuter : Option Interface)
    (riid : Option Guid) (ppvObject : Option Slot) :
    Called (Except ComError Unit) :=
  match ppvObject with
  | none =>
      { answer := .error
          { code := HResult.ePointer, message := "ppvobject is null" }
        slot := none
        server := s
        events := [] }
  | some _ =>
      -- From here on the slot holds a null pointer.
      if punkOuter.isSome then
        { answer := .error
            { code := HResult.classENoaggregation, message := noAggregation }
          slot := some none
          server := s
          events := [] }
      else
        let unknown := s.carriers.length
        let created := s.createCarrier self
        let (hr, stored) := com.query .carrier self.kind riid
        let queried :=
          match stored with
          | .interface => created.addRefCarrier unknown
          | _ => created
        -- `unknown` goes out of scope.
        let (server, events) := queried.releaseCarrier unknown
        { answer := hr.ok.mapError fun code => { code, message := "" }
          slot := some (stored.into (.carrier unknown) none)
          server
          events }

/-- `ApoClassFactory::CreateInstance`. -/
def createInstance :=
  createInstanceWith "ApoClassFactory does not support aggregation"

/-- `AecApoClassFactory::CreateInstance`. -/
def aecCreateInstance :=
  createInstanceWith "AecApoClassFactory does not support aggregation"

/-- `LockServer` of the factory at a place. -/
def lockServer (s : Server) (place : ℕ) (fLock : Bool) : Server :=
  { s with
    factories := s.factories.update place fun self =>
      if fLock then
        { self with
          serverLock := self.serverLock.addRef.2
          pendingLocks := self.pendingLocks + 1 }
      else
        { self with
          serverLock := self.serverLock.release.2
          pendingLocks := self.pendingLocks - 1 } }

end Server

end TympanApo.ComServer
