import TympanApo.Raw.InstanceCom
import TympanApo.Raw.Negotiation

/-!
# From negotiation to audio

An object with the default negotiation hooks, seen over a whole run of the
engine: a media type it answered with opens a session in which no buffer is
silenced by the framework, however long ago it was answered and whatever the
engine did in between.
-/

namespace TympanApo.InstanceCom

open TympanApo.Dispatch
open TympanApo.Negotiation (KeepsDefaultNegotiation IsFloat32)
open TympanApo.Support

variable {σ : Type} {T : ProcessingObject σ} {self : ApoInstance σ}

/-- A format query was answered with `media`. -/
def AnsweredWith (media : MediaType) (x : Exchange) : Prop :=
  (∃ opposite requested, x.method = .isInputFormatSupported opposite requested ∨
    x.method = .isOutputFormatSupported opposite requested) ∧
  x.reply = .mediaType (.ok media)

/-- Some format query of a run was answered with `media`. -/
def Negotiated (H : List Exchange) (media : MediaType) : Prop :=
  ∃ x ∈ H, AnsweredWith media x

/-- A media type the format gate of the realtime methods lets through, up to
its channel count. -/
def Float32Media (media : MediaType) : Prop :=
  ∃ format, formatFromMediaType (some media) = .ok format ∧ IsFloat32 format

theorem float32Media_of_isFloat32 {format : Format} (h : IsFloat32 format) :
    Float32Media (mediaTypeFromFormat format) :=
  ⟨format.wireForm, formatFromMediaType_mediaTypeFromFormat format,
    Negotiation.isFloat32_wireForm h⟩

/-- The default hooks answer with float formats only. -/
theorem float32Media_of_negotiateFormat (hT : KeepsDefaultNegotiation T)
    {requested : Option MediaType} {direction : NegotiationDirection}
    {media : MediaType}
    (h : (negotiateFormat T self requested direction).answer = .ok media) :
    Float32Media media := by
  unfold negotiateFormat at h
  split at h
  next => cases h
  next format hformat =>
    have hdecision := Negotiation.formatDecision_of_default hT self direction
      format
    simp only [Effect.map, hdecision] at h
    by_cases hfloat : IsFloat32 format
    · rw [Negotiation.default_of_isFloat32 hfloat] at h
      obtain rfl := Except.ok.inj h
      exact float32Media_of_isFloat32 hfloat
    · rw [Negotiation.default_of_not_isFloat32 hfloat] at h
      obtain rfl := Except.ok.inj h
      exact float32Media_of_isFloat32 (Negotiation.isFloat32_pcmFloat32 _ _)

theorem float32Media_of_invoke (hT : KeepsDefaultNegotiation T)
    {interfaces : List Guid} {method : Method} {media : MediaType}
    {hooks : List HookCall}
    (h : AnsweredWith media
      { method, hooks, reply := (invoke interfaces T self method).answer }) :
    Float32Media media := by
  obtain ⟨⟨opposite, requested, hmethod | hmethod⟩, hreply⟩ := h
  · simp only at hmethod hreply
    subst hmethod
    exact float32Media_of_negotiateFormat hT (Reply.mediaType.inj hreply)
  · simp only at hmethod hreply
    subst hmethod
    exact float32Media_of_negotiateFormat hT (Reply.mediaType.inj hreply)

theorem float32Media_of_negotiated (hT : KeepsDefaultNegotiation T)
    {interfaces : List Guid} {H : List Exchange}
    (h : (machine interfaces T).Reaches H self) {media : MediaType}
    (hmedia : Negotiated H media) : Float32Media media := by
  obtain ⟨x, hx, hanswered⟩ := hmedia
  refine h.forall_mem
    (P := fun x => AnsweredWith media x → Float32Media media) ?_ x hx hanswered
  intro H es s s' method _ _ hstep x hx
  obtain ⟨rfl, rfl⟩ := Prod.mk.inj (Option.some.inj hstep)
  obtain rfl := List.mem_singleton.mp hx
  exact float32Media_of_invoke hT

/-! ## Sessions on negotiated formats -/

/-- In the session open after `H` the input format is one that was answered in
`H`, with at least one channel. -/
structure OnNegotiatedInput (H : List Exchange) (formats : LockedFormats) :
    Prop where
  session : openSession H = some formats
  negotiated : ∃ media, Negotiated H media ∧
    formatFromMediaType (some media) = .ok formats.input
  channels : formats.input.channels ≠ 0

/-- A call of `APOProcess` on `self` runs the user's hook once, on two buffers
of one sample per frame and input channel; the user's state is what the hook
makes of it, and the output is what the hook said. -/
def Plays (interfaces : List Guid) (T : ProcessingObject σ)
    (self : ApoInstance σ) (method : Method)
    (inProp outProp : ConnectionProperty) (channels : UInt16) : Prop :=
  ∃ len,
    len.toNat = inProp.u32ValidFrameCount.toNat * channels.toNat ∧
    let input : ProcessInput :=
      { samples := { addr := inProp.pBuffer, len }
        flags := inProp.u32BufferFlags }
    let output : Slice := { addr := outProp.pBuffer, len }
    let hook := T.process self.inner input output
    invoke interfaces T self method =
      { answer := .connections (some (some
          { outProp with
            u32ValidFrameCount := inProp.u32ValidFrameCount
            u32BufferFlags := hook.1 }))
        inst := { self with inner := hook.2 }
        hooks := [.process input output hook.1] }

/-- On a negotiated input the next call of `APOProcess` plays, whatever valid
properties it is handed. -/
def NeverSilenced (interfaces : List Guid) (T : ProcessingObject σ)
    (H : List Exchange) (self : ApoInstance σ) : Prop :=
  ∀ numIn ppIn numOut ppOut inProp outProp formats,
    Connected numIn ppIn numOut ppOut inProp outProp →
    OnNegotiatedInput H formats →
      Plays interfaces T self (.apoProcess numIn ppIn numOut ppOut) inProp
        outProp formats.input.channels

theorem plays_of_gate {numIn numOut : UInt32} {ppIn ppOut : Connections}
    {inProp outProp : ConnectionProperty} {formats : LockedFormats}
    (interfaces : List Guid)
    (hconnected : Connected numIn ppIn numOut ppOut inProp outProp)
    (hformats : self.lockedFormats = some formats)
    (hgate : passesFormatGate formats.input = true) :
    Plays interfaces T self (.apoProcess numIn ppIn numOut ppOut) inProp
      outProp formats.input.channels := by
  have hload := ApoInstance.load_of_lockedFormats hformats
  have hcell : self.lockedFormatsCell = some formats :=
    (ApoInstance.lockedFormats_of_locked hload).symm.trans hformats
  obtain ⟨len, hlen, heffect⟩ :=
    processConnection_of_gate (T := T) inProp outProp hload hcell hgate
  have hprocess : apoProcess T self numIn ppIn numOut ppOut = _ :=
    apoProcess_of_connected hconnected
  rw [heffect] at hprocess
  refine ⟨len, hlen, ?_⟩
  simp only [invoke, hprocess]
  rfl

/-- Wherever a run of an object with the default negotiation hooks leads, no
call of `APOProcess` with valid properties is silenced while the session is on
an input format that the object itself answered a query with. -/
theorem never_silenced_of_reaches (hT : KeepsDefaultNegotiation T)
    {interfaces : List Guid} {H : List Exchange}
    (h : (machine interfaces T).Reaches H self) :
    NeverSilenced interfaces T H self := by
  rintro numIn ppIn numOut ppOut inProp outProp formats hconnected
    ⟨hsession, ⟨media, hmedia, hdecoded⟩, hchannels⟩
  obtain ⟨format, hformat, hfloat, hbits⟩ :=
    float32Media_of_negotiated hT h hmedia
  obtain rfl := Except.ok.inj (hdecoded.symm.trans hformat)
  have hgate := (passesFormatGate_iff formats.input).mpr
    ⟨hchannels, hfloat, hbits⟩
  have hlocked := (lockedFormats_of_reaches h).trans hsession
  exact plays_of_gate interfaces hconnected hlocked hgate

/-- A request for 16-bit integers is answered with floats, and the session on
the answer plays. -/
theorem never_silenced_passthrough :
    ∃ H self, (machine [] passthrough).Reaches H self ∧
      OnNegotiatedInput H ⟨.pcmFloat32 48000 2, .pcmFloat32 48000 2⟩ ∧
      NeverSilenced [] passthrough H self := by
  have hreach : (machine [] passthrough).Reaches _ _ :=
    Machine.reaches_of_exec
      [.isInputFormatSupported none
          (some (mediaTypeFromFormat (.pcmInt16 48000 2))),
        .initializeInstance 0 none,
        .lockForProcess 1 (some (some (descriptorOf (.pcmFloat32 48000 2))))
          1 (some (some (descriptorOf (.pcmFloat32 48000 2)))),
        .apoProcess
          1 (some (some ⟨0x1000, 480, .valid, connectionPropertySignature⟩))
          1 (some (some ⟨0x9000, 0, .invalid, connectionPropertySignature⟩))]
      rfl
  refine ⟨_, _, hreach, ⟨rfl, ⟨mediaTypeFromFormat (.pcmFloat32 48000 2),
      ⟨_, List.mem_cons_self, ?_⟩, rfl⟩, by decide⟩,
    never_silenced_of_reaches ⟨fun _ _ => rfl, fun _ _ => rfl⟩ hreach⟩
  exact ⟨⟨none, _, .inl rfl⟩, rfl⟩

end TympanApo.InstanceCom
