import TympanApo.Layout
import TympanApo.Raw.SystemEffects
import TympanApo.Support.Block

/-!
# Lists of system effects

The dispatch bodies of `GetEffectsList` and `GetControllableSystemEffectsList`
in `raw/dispatch.rs`.  Each copies a snapshot of the user's effects into memory
of its own; they differ in the entries they write and in their messages.
-/

namespace TympanApo.Dispatch

open TympanApo.Support

variable {σ : Type*}

/-! ## Entries -/

/-- `AUDIO_SYSTEMEFFECT`. -/
structure AudioSystemEffect where
  id : Guid
  /-- `BOOL`. -/
  canSetState : Int32
  state : AudioSystemEffectState
  deriving DecidableEq

/-- `From<bool> for BOOL`. -/
def boolOf (value : Bool) : Int32 :=
  if value then 1 else 0

/-- The `match` that carries a state value to the engine. -/
def stateOf : SystemEffectState → AudioSystemEffectState
  | .off => .off
  | .on => .on

/-- The entry that `get_controllable_system_effects_list` writes. -/
def controllableEntry (eff : SystemEffect) : AudioSystemEffect where
  id := eff.id.toGuid
  canSetState := boolOf eff.controllable
  state := stateOf eff.state

def int32Bytes (n : Int32) : List UInt8 :=
  leBytes 4 n.toUInt32.toNat

def int32OfBytes (bs : List UInt8) : Int32 :=
  (UInt32.ofNat (ofLeBytes bs)).toInt32

/-- The bytes of an `AUDIO_SYSTEMEFFECT`. -/
def audioSystemEffectBytes (entry : AudioSystemEffect) : List UInt8 :=
  guidBytes entry.id ++ int32Bytes entry.canSetState ++
    int32Bytes entry.state.val

/-- Twenty-four bytes read as an `AUDIO_SYSTEMEFFECT`. -/
def audioSystemEffectOfBytes (bs : List UInt8) : AudioSystemEffect where
  id := guidOfBytes (bs.take 16)
  canSetState := int32OfBytes ((bs.drop 16).take 4)
  state := ⟨int32OfBytes (bs.drop 20)⟩

theorem length_audioSystemEffectBytes (entry : AudioSystemEffect) :
    (audioSystemEffectBytes entry).length = 24 := by
  simp [audioSystemEffectBytes, int32Bytes]

theorem int32OfBytes_int32Bytes (n : Int32) :
    int32OfBytes (int32Bytes n) = n := by
  rw [int32OfBytes, int32Bytes, ofNat_ofLeBytes_leBytes32]
  exact Int32.toInt32_toUInt32 n

theorem audioSystemEffectOfBytes_audioSystemEffectBytes
    (entry : AudioSystemEffect) :
    audioSystemEffectOfBytes (audioSystemEffectBytes entry) = entry := by
  have hid : (audioSystemEffectBytes entry).take 16 = guidBytes entry.id := by
    rw [audioSystemEffectBytes, List.append_assoc]
    exact List.take_left' (length_guidBytes _)
  have htail : (audioSystemEffectBytes entry).drop 16 =
      int32Bytes entry.canSetState ++ int32Bytes entry.state.val := by
    rw [audioSystemEffectBytes, List.append_assoc]
    exact List.drop_left' (length_guidBytes _)
  have hflag : ((audioSystemEffectBytes entry).drop 16).take 4 =
      int32Bytes entry.canSetState := by
    rw [htail]
    exact List.take_left' (by simp [int32Bytes])
  have hstate : (audioSystemEffectBytes entry).drop 20 =
      int32Bytes entry.state.val :=
    List.drop_left' (by simp [int32Bytes])
  rw [audioSystemEffectOfBytes, hid, hflag, hstate, guidOfBytes_guidBytes,
    int32OfBytes_int32Bytes, int32OfBytes_int32Bytes]

/-! ## The two bodies -/

/-- What an out pointer to a list is set to. -/
inductive ListPtr
  | null
  | foreign (address : UInt64)
  | block (b : Block)

/-- The two out parameters; `none` is a null pointer to the slot. -/
structure OutParams where
  list : Option ListPtr
  count : Option UInt32

/-- The answer of a body, the out parameters it leaves and the sizes it asked
the allocator for. -/
structure Listing where
  result : Except ComError Unit
  out : OutParams
  requests : List UInt64

/-- A failure leaves the out parameters alone. -/
def Listing.fail (code : HResult) (message : String) (out : OutParams)
    (requests : List UInt64) : Listing where
  result := .error { code, message }
  out := out
  requests := requests

/-- The copy of a snapshot, with entries of `size` bytes. -/
def copyList (name : String) (size : UInt64)
    (encode : SystemEffect → List UInt8) (alloc : CoTaskMemAlloc)
    (effects : List SystemEffect) (out : OutParams) : Listing :=
  let count := effects.length
  if count = 0 then
    { result := .ok ()
      out := { list := some .null, count := some 0 }
      requests := [] }
  else
    match checkedMul (UInt64.ofNat count) size with
    | none => .fail HResult.eOutofmemory
        (name ++ " size calculation overflowed") out []
    | some totalBytes =>
        match alloc totalBytes with
        | none => .fail HResult.eOutofmemory
            ("CoTaskMemAlloc returned null for " ++ name) out [totalBytes]
        | some bytes =>
            let raw := Block.alloc totalBytes.toNat bytes
            let list := Block.writeArray encode size.toNat 0 effects raw
            { result := .ok ()
              out := { list := some (.block list)
                       count := some (UInt32.ofNat count) }
              requests := [totalBytes] }

/-- The body shared by the two functions. -/
def listEffects (name : String) (size : UInt64)
    (encode : SystemEffect → List UInt8) (alloc : CoTaskMemAlloc)
    (T : ProcessingObject σ) (self : ApoInstance σ) (out : OutParams) :
    Effect σ Listing :=
  if out.list.isNone || out.count.isNone then
    { answer := .fail HResult.ePointer
        (name ++ " output pointers were null") out []
      inst := self
      hooks := [] }
  else
    let effects := self.systemEffects T
    { answer := copyList name size encode alloc effects.answer out
      inst := effects.inst
      hooks := effects.hooks }

/-- `get_effects_list`. -/
def getEffectsList (alloc : CoTaskMemAlloc) (T : ProcessingObject σ)
    (self : ApoInstance σ) (out : OutParams) : Effect σ Listing :=
  listEffects "GetEffectsList" 16 (fun eff => guidBytes eff.id.toGuid) alloc T
    self out

/-- `get_controllable_system_effects_list`. -/
def getControllableSystemEffectsList (alloc : CoTaskMemAlloc)
    (T : ProcessingObject σ) (self : ApoInstance σ) (out : OutParams) :
    Effect σ Listing :=
  listEffects "GetControllableSystemEffectsList" 24
    (fun eff => audioSystemEffectBytes (controllableEntry eff)) alloc T self out

/-! ## What the caller reads -/

/-- The effect that an entry describes. -/
def AudioSystemEffect.effect (entry : AudioSystemEffect) :
    Option SystemEffect :=
  (crossState entry.state).map fun state =>
    { id := Clsid.ofGuid entry.id
      controllable := entry.canSetState != 0
      state }

/-- The flag and the state of an effect survive the entry. -/
theorem effect_controllableEntry (eff : SystemEffect) :
    (controllableEntry eff).effect = some eff := by
  obtain ⟨id, controllable, state⟩ := eff
  cases controllable <;> cases state <;> rfl

/-- The entries the out parameters give, `size` bytes each. -/
def OutParams.read {α : Type*} (decode : List UInt8 → α) (size : ℕ)
    (out : OutParams) : Option (List α) :=
  match out.list, out.count with
  | some .null, some count => if count = 0 then some [] else none
  | some (.block b), some count =>
      some (Block.readArray decode size 0 count.toNat b)
  | _, _ => none

/-- What a listing owes a caller who handed it `out`: what it reads is
`entries`. -/
structure Marshals {α : Type*} (decode : List UInt8 → α) (size : ℕ)
    (entries : List α) (out : OutParams) (l : Listing) : Prop where
  count : l.result = .ok () →
    ∃ count, l.out.count = some count ∧ count.toNat = entries.length
  read : l.result = .ok () → l.out.read decode size = some entries
  inBounds : ∀ b, l.result = .ok () → l.out.list = some (.block b) →
    b.InBounds ∧ l.requests = [UInt64.ofNat b.size]
  empty : l.result = .ok () → entries = [] →
    l.out = { list := some .null, count := some 0 } ∧ l.requests = []
  failed : ∀ e, l.result = .error e → l.out = out

/-- There is somewhere to put a list of `n` entries of `size` bytes, and memory
for it. -/
def HasRoom (alloc : CoTaskMemAlloc) (size : UInt64) (n : ℕ)
    (out : OutParams) : Prop :=
  out.list ≠ none ∧ out.count ≠ none ∧
    (n = 0 ∨ alloc (UInt64.ofNat n * size) ≠ none)

theorem Marshals.of_fail {α : Type*} (decode : List UInt8 → α) (size : ℕ)
    (entries : List α) (out : OutParams) (code : HResult) (message : String)
    (requests : List UInt64) :
    Marshals decode size entries out (.fail code message out requests) where
  count h := nomatch h
  read h := nomatch h
  inBounds _ h := nomatch h
  empty h := nomatch h
  failed _ _ := rfl

section Copy

variable {α : Type*} {name : String} {size : UInt64}
variable {encode : SystemEffect → List UInt8} {decode : List UInt8 → α}

/-- The copy of a snapshot of fewer than `2 ^ 32` effects. -/
theorem marshals_copyList (hencode : ∀ eff, (encode eff).length = size.toNat)
    (alloc : CoTaskMemAlloc) {effects : List SystemEffect}
    (hcount : effects.length < 2 ^ 32) (out : OutParams) :
    Marshals decode size.toNat (effects.map fun eff => decode (encode eff)) out
      (copyList name size encode alloc effects out) := by
  by_cases hzero : effects.length = 0
  · obtain rfl := List.eq_nil_of_length_eq_zero hzero
    exact ⟨fun _ => ⟨0, rfl, rfl⟩, fun _ => rfl, fun b _ hb => (nomatch hb),
      fun _ _ => ⟨rfl, rfl⟩, fun e he => (nomatch he)⟩
  · simp only [copyList, if_neg hzero]
    cases htotal : checkedMul (UInt64.ofNat effects.length) size with
    | none => exact Marshals.of_fail _ _ _ _ _ _ _
    | some total =>
        simp only
        cases halloc : alloc total with
        | none => exact Marshals.of_fail _ _ _ _ _ _ _
        | some bytes =>
            have hsize := toNat_of_checkedMul htotal
            rw [UInt64.toNat_ofNat_of_lt' (hcount.trans (by decide))] at hsize
            have hlength : (UInt32.ofNat effects.length).toNat =
                effects.length := UInt32.toNat_ofNat_of_lt' hcount
            refine ⟨fun _ => ⟨_, rfl, by rw [hlength, List.length_map]⟩,
              fun _ => ?_, ?_, ?_, fun e he => (nomatch he)⟩
            · simp only [OutParams.read, hlength]
              rw [Block.readArray_writeArray hencode]
            · rintro b - hb
              cases hb
              refine ⟨(Block.inBounds_alloc _ _).writeArray hencode ?_, ?_⟩
              · simp [Block.alloc, hsize]
              · simp [Block.alloc]
            · intro _ hnil
              exact absurd (by simpa using congrArg List.length hnil) hzero

variable (size encode decode) in
/-- What the two bodies have in common. -/
theorem marshals_listEffects
    (hencode : ∀ eff, (encode eff).length = size.toNat)
    (alloc : CoTaskMemAlloc) (T : ProcessingObject σ) (self : ApoInstance σ)
    (hcount : (advertised T self).length < 2 ^ 32) (out : OutParams) :
    Marshals decode size.toNat
      ((advertised T self).map fun eff => decode (encode eff)) out
      (listEffects name size encode alloc T self out).answer := by
  unfold listEffects
  split
  · exact Marshals.of_fail _ _ _ _ _ _ _
  · exact marshals_copyList hencode alloc hcount out

/-- The copy of a non-empty snapshot succeeds when the memory it asks for is
there; nothing overflows. -/
theorem copyList_ok_iff (hsize : size.toNat < 2 ^ 32) (alloc : CoTaskMemAlloc)
    {effects : List SystemEffect} (hcount : effects.length < 2 ^ 32)
    (hnil : effects ≠ []) (out : OutParams) :
    (copyList name size encode alloc effects out).result = .ok () ↔
      alloc (UInt64.ofNat effects.length * size) ≠ none := by
  have hlength : (UInt64.ofNat effects.length).toNat = effects.length :=
    UInt64.toNat_ofNat_of_lt' (hcount.trans (by decide))
  have hproduct : effects.length * size.toNat < 2 ^ 64 :=
    calc effects.length * size.toNat < 2 ^ 32 * 2 ^ 32 :=
          Nat.mul_lt_mul_of_lt_of_le hcount hsize.le (by decide)
      _ = 2 ^ 64 := by decide
  have htotal : checkedMul (UInt64.ofNat effects.length) size =
      some (UInt64.ofNat effects.length * size) :=
    if_pos (by rwa [hlength])
  have hzero : effects.length ≠ 0 := by
    rwa [ne_eq, List.length_eq_zero_iff]
  simp only [copyList, if_neg hzero, htotal]
  cases alloc (UInt64.ofNat effects.length * size) with
  | none => simp [Listing.fail]
  | some bytes => simp

/-- A listing succeeds when there is room for it. -/
theorem listEffects_ok_iff (hsize : size.toNat < 2 ^ 32)
    (alloc : CoTaskMemAlloc) (T : ProcessingObject σ) (self : ApoInstance σ)
    (hcount : (advertised T self).length < 2 ^ 32) (out : OutParams) :
    (listEffects name size encode alloc T self out).answer.result = .ok () ↔
      HasRoom alloc size (advertised T self).length out := by
  unfold listEffects HasRoom
  split
  next hnull =>
    refine iff_of_false (fun h => nomatch h) fun h => ?_
    obtain ⟨hlist, hslot, -⟩ := h
    simp [hlist, hslot] at hnull
  next hnull =>
    have hslots : out.list ≠ none ∧ out.count ≠ none := by
      simpa [not_or] using hnull
    rw [← and_assoc, and_iff_right hslots, List.length_eq_zero_iff]
    by_cases hnil : advertised T self = []
    · refine iff_of_true ?_ (Or.inl hnil)
      change (copyList name size encode alloc (advertised T self) out).result =
        .ok ()
      rw [hnil]
      rfl
    · rw [or_iff_right hnil]
      exact copyList_ok_iff hsize alloc hcount hnil out

end Copy

/-- What the listing `l` of the identifiers and the listing `l'` of the effects
of one snapshot owe their callers. -/
structure ListingsAgree (effects : List SystemEffect)
    (alloc alloc' : CoTaskMemAlloc) (out out' : OutParams)
    (l l' : Listing) : Prop where
  ids_ok : l.result = .ok () ↔ HasRoom alloc 16 effects.length out
  effects_ok : l'.result = .ok () ↔ HasRoom alloc' 24 effects.length out'
  ids : Marshals (fun bs => Clsid.ofGuid (guidOfBytes bs)) 16
    (effects.map (·.id)) out l
  effects : Marshals (fun bs => (audioSystemEffectOfBytes bs).effect) 24
    (effects.map some) out' l'
  count : l.result = .ok () → l'.result = .ok () → l.out.count = l'.out.count

/-- For every snapshot of fewer than `2 ^ 32` effects and all outcomes of the
allocations, the two listings agree. -/
theorem listings_agree (alloc alloc' : CoTaskMemAlloc)
    (T : ProcessingObject σ) (self : ApoInstance σ) (out out' : OutParams)
    (hcount : (advertised T self).length < 2 ^ 32) :
    ListingsAgree (advertised T self) alloc alloc' out out'
      (getEffectsList alloc T self out).answer
      (getControllableSystemEffectsList alloc' T self out').answer := by
  have hids : Marshals (fun bs => Clsid.ofGuid (guidOfBytes bs)) 16
      ((advertised T self).map fun eff =>
        Clsid.ofGuid (guidOfBytes (guidBytes eff.id.toGuid))) out
      (getEffectsList alloc T self out).answer :=
    marshals_listEffects 16 (fun eff => guidBytes eff.id.toGuid)
      (fun bs => Clsid.ofGuid (guidOfBytes bs)) (fun _ => length_guidBytes _)
      alloc T self hcount out
  have heffects : Marshals (fun bs => (audioSystemEffectOfBytes bs).effect) 24
      ((advertised T self).map fun eff => (audioSystemEffectOfBytes
        (audioSystemEffectBytes (controllableEntry eff))).effect) out'
      (getControllableSystemEffectsList alloc' T self out').answer :=
    marshals_listEffects 24
      (fun eff => audioSystemEffectBytes (controllableEntry eff))
      (fun bs => (audioSystemEffectOfBytes bs).effect)
      (fun _ => length_audioSystemEffectBytes _) alloc' T self hcount out'
  simp only [guidOfBytes_guidBytes, Clsid.ofGuid_toGuid] at hids
  simp only [audioSystemEffectOfBytes_audioSystemEffectBytes,
    effect_controllableEntry] at heffects
  refine ⟨listEffects_ok_iff (by decide) alloc T self hcount out,
    listEffects_ok_iff (by decide) alloc' T self hcount out', hids, heffects,
    fun hok hok' => ?_⟩
  obtain ⟨count, hout, hlength⟩ := hids.count hok
  obtain ⟨count', hout', hlength'⟩ := heffects.count hok'
  rw [List.length_map] at hlength hlength'
  rw [hout, hout', UInt32.toNat_inj.mp (hlength.trans hlength'.symm)]

/-- One effect listed twice: with memory for the identifiers and none for the
entries. -/
theorem listings_agree_fixedEffect :
    ListingsAgree (advertised fixedEffect (.new fixedEffect))
      (fun _ => some fun _ => 0) (fun _ => none)
      { list := some .null, count := some 0 }
      { list := some .null, count := some 0 }
      (getEffectsList (fun _ => some fun _ => 0) fixedEffect (.new fixedEffect)
        { list := some .null, count := some 0 }).answer
      (getControllableSystemEffectsList (fun _ => none) fixedEffect
        (.new fixedEffect) { list := some .null, count := some 0 }).answer :=
  listings_agree _ _ fixedEffect (.new fixedEffect) _ _ (by decide)

end TympanApo.Dispatch
