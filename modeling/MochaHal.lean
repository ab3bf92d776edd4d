import MochaHal.Audio.ApplyCtls
import MochaHal.Audio.AsyncWorker
import MochaHal.Audio.ByteArray
import MochaHal.Audio.CaptureProvider
import MochaHal.Audio.CodecProbe
import MochaHal.Audio.CompressOutput
import MochaHal.Audio.ConfigParser
import MochaHal.Audio.CtlOwners
import MochaHal.Audio.Directions
import MochaHal.Audio.Disconnect
import MochaHal.Audio.Divisors
import MochaHal.Audio.DynArray
import MochaHal.Audio.MmapPlayback
import MochaHal.Audio.Numbers
import MochaHal.Audio.OutputOpen
import MochaHal.Audio.ParseStack
import MochaHal.Audio.ReadPacing
import MochaHal.Audio.Routing
import MochaHal.Audio.StreamRefs
import MochaHal.Audio.TinyMixer
import MochaHal.Audio.Unshorten
import MochaHal.Audio.UseCases
import MochaHal.Audio.UseCount
import MochaHal.Audio.VoiceTrigger
import MochaHal.Audio.Volume
import MochaHal.Audio.Walk
import MochaHal.Bionic.Cond
import MochaHal.Camera.AfScan
import MochaHal.Camera.AfTrigger
import MochaHal.Camera.Atomicity
import MochaHal.Camera.AutoExposure
import MochaHal.Camera.CaptureBounds
import MochaHal.Camera.Completion
import MochaHal.Camera.Configure
import MochaHal.Camera.Device
import MochaHal.Camera.DeviceBounds
import MochaHal.Camera.DeviceFrame
import MochaHal.Camera.FocusMetric
import MochaHal.Camera.GammaCache
import MochaHal.Camera.InFlight
import MochaHal.Camera.JpegBlob
import MochaHal.Camera.MappingBalance
import MochaHal.Camera.Metadata
import MochaHal.Camera.MetadataChange
import MochaHal.Camera.MetadataOwners
import MochaHal.Camera.MetadataValues
import MochaHal.Camera.Parameters
import MochaHal.Camera.Pipeline
import MochaHal.Camera.PipelineFrame
import MochaHal.Camera.StreamSelection
import MochaHal.Camera.Streaming
import MochaHal.Camera.Tracker
import MochaHal.Camera.TrackerLeak
import MochaHal.Camera.Tuning
import MochaHal.Camera.V4l2Session
import MochaHal.Camera.VendorTagParcel
import MochaHal.Camera.VendorTags
import MochaHal.Camera.WhiteBalance
import MochaHal.Gatekeeper.SoftGateKeeper
import MochaHal.Hidl.Light
import MochaHal.Isp.Cfa
import MochaHal.Isp.ColorConv
import MochaHal.Isp.ColorConvBounds
import MochaHal.Isp.ColorConvExact
import MochaHal.Isp.Demosaic
import MochaHal.Isp.DemosaicAccess
import MochaHal.Isp.DemosaicFrame
import MochaHal.Isp.DemosaicRow
import MochaHal.Lib.Assoc
import MochaHal.Lib.Bits
import MochaHal.Lib.Checked
import MochaHal.Lib.Decimal
import MochaHal.Lib.Entries
import MochaHal.Lib.Latch
import MochaHal.Lib.Loop
import MochaHal.Lib.Monitor
import MochaHal.Lib.Neon
import MochaHal.Lib.Parcel
import MochaHal.Lib.Pointers
import MochaHal.Lib.Prog
import MochaHal.Lib.Reach
import MochaHal.Lib.Realloc
import MochaHal.Lib.Ring
import MochaHal.Lib.Service
import MochaHal.Lib.Spans
import MochaHal.Lib.Stores
import MochaHal.Lib.Strtok
import MochaHal.Lib.Writes
import MochaHal.Power.Command
import MochaHal.Power.Frequencies
import MochaHal.Power.Hints
import MochaHal.Power.TimedRelease
import MochaHal.Power.TimeoutPoker
import MochaHal.Sensors.Dispatch
import MochaHal.Sensors.EventQueue
import MochaHal.Sensors.Multihal
import MochaHal.Sensors.Poll
import MochaHal.Sensors.Registry
import MochaHal.Thermal.Complete
import MochaHal.Thermal.Cooling
import MochaHal.Thermal.CoreNames
import MochaHal.Thermal.Descriptors
import MochaHal.Thermal.Parse
import MochaHal.Thermal.Temperatures
