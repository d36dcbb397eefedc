import TympanApo.Realtime.RingLinearization
import TympanApo.Realtime.State
import TympanApo.Realtime.Refcount
import TympanApo.Error
import TympanApo.Buffer
import TympanApo.Instance
import TympanApo.Support.Session
import TympanApo.Instance.Lifecycle
import TympanApo.Raw.Dispatch
import TympanApo.Raw.BufferBounds
import TympanApo.Raw.Negotiation
import TympanApo.Instance.Concurrent
import TympanApo.Instance.Serialisation
import TympanApo.Raw.ClassFactory
import TympanApo.Raw.Exports
import TympanApo.Raw.Carriers
import TympanApo.Realtime.RingStability
import TympanApo.Support.CyclicIndex
import TympanApo.Realtime.RingDrop
import TympanApo.Realtime.RingWrap
import TympanApo.Aec
import TympanApo.Raw.AecDispatch
import TympanApo.Raw.EngineResult
import TympanApo.Format.Overflow
import TympanApo.Raw.SystemEffects
import TympanApo.Raw.RegProperties
import TympanApo.Clsid.Text
import TympanApo.Raw.Hive
import TympanApo.Raw.Register
import TympanApo.Raw.Registration
import TympanApo.FxProperties
import TympanApo.FxProperties.Bindings
import TympanApo.Support.Registry
import TympanApo.Realtime.StateRuns
import TympanApo.Realtime.RefcountRuns
import TympanApo.Support.Block
import TympanApo.Raw.RegPayload
import TympanApo.Raw.EffectLists
import TympanApo.Support.Quoting
import TympanApo.Support.SectionText
import TympanApo.Inf
import TympanApo.Clsid.Renderings
import TympanApo.Raw.InstanceCom
import TympanApo.Aec.InstanceCom
import TympanApo.Raw.Isolation
import TympanApo.Raw.Streams
import TympanApo.Support.RegistryAgree
import TympanApo.Raw.Recovery
import TympanApo.FxProperties.Answers
import TympanApo.Inf.Install
import TympanApo.Support.FixedCodec
import TympanApo.Format.Memory
import TympanApo.Support.WaitFree
import TympanApo.Realtime.RingWaitFree
import TympanApo.Support.Linearization
import TympanApo.Instance.Linearization
import TympanApo.Raw.Activation
import TympanApo.Raw.References
