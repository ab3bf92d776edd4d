import MochaHal.Camera.Pipeline

/-! The camera device of `camera/MochaCameraHAL.cpp`: `configure_streams`,
`process_capture_request`, `flush` and `close`.  The device's own fields are the
state; the in-flight tracker, which other threads share, the framework's
callbacks, gralloc, the fences and the kernel are outside and answer calls.  So
the same text can be run alone or interleaved with other threads. -/

namespace MochaHal.Camera
open MochaHal.Demosaic
open MochaHal.Prog (onlyIf embed)

/-! ## Streams, requests and results -/

inductive StreamType
  | output
  | input
  | bidirectional
  deriving DecidableEq, Repr

/-- A `camera3_stream_t`; `id` stands for its address. -/
structure Stream where
  id : Nat
  stream_type : StreamType
  width : BitVec 32
  height : BitVec 32
  format : PixelFormat
  max_buffers : Nat
  deriving DecidableEq, Repr

inductive BufferStatus
  | ok
  | error
  deriving DecidableEq, Repr

structure StreamBuffer where
  stream : Stream
  buffer : Option Nat
  acquire_fence : Int
  release_fence : Int
  status : BufferStatus
  deriving DecidableEq, Repr

/-- The entries of the settings that the HAL reads. -/
structure Settings where
  afMode : Option Byte
  afTrigger : Option Byte

structure CaptureRequest where
  frame_number : BitVec 32
  settings : Option Settings
  output_buffers : List StreamBuffer

/-- The arguments of `build_result_metadata`. -/
structure ResultMetadata where
  frameNumber : BitVec 32
  timestamp : Int
  exposure : Int
  sensitivity : Int
  afState : Int
  focusPos : Int
  deriving DecidableEq, Repr

structure CaptureResult where
  frame_number : BitVec 32
  result : Option ResultMetadata
  output_buffers : List StreamBuffer
  partial_result : Nat
  deriving DecidableEq, Repr

inductive NotifyMsg
  | shutter (frame_number : BitVec 32) (timestamp : Int)
  | errorDevice (frame_number : BitVec 32)
  deriving DecidableEq, Repr

/-! ## Calls -/

inductive DevOp
  | kernel (o : KernelOp)
  | isError (frame : BitVec 32)
  | add (frame : BitVec 32) (buffer : Option Nat)
  | remove (frame : BitVec 32)
  | markAllAsError
  | drainAll
  | count
  | notify (msg : NotifyMsg)
  | processCaptureResult (result : CaptureResult)
  | pollFence (fence : Int)
  | closeFence (fence : Int)
  | getGralloc
  /-- `lock` or `lock_ycbcr`: whether it succeeded with an address. -/
  | lock (ycbcr : Bool) (handle : Nat) (width height : BitVec 32)
  | unlock (handle : Nat)
  /-- What `captureFrame` wrote from the locked address on. -/
  | clientStore (stores : CameraPipeline.Stores)
  | malloc (size : BitVec 32)
  /-- `encodeRGBA` into the locked blob buffer: its return value and `jpegSize`. -/
  | encodeRgba (rgba : Mem) (width height : BitVec 32) (quality : Nat) (outputSize : BitVec 32)
  | storeTrailer (offset jpegSize : BitVec 32)
  | allocateMetadata
  | clock
  /-- The uninitialised fields of a new pipeline. -/
  | newPipeline

@[reducible] def DevOp.Ans : DevOp → Type
  | .kernel o => o.Ans
  | .isError _ => Bool
  | .add _ _ => Unit
  | .remove _ => Bool
  | .markAllAsError => Unit
  | .drainAll => List (BitVec 32)
  | .count => Nat
  | .notify _ => Unit
  | .processCaptureResult _ => Unit
  | .pollFence _ => PollReply
  | .closeFence _ => Unit
  | .getGralloc => Bool
  | .lock _ _ _ _ => Bool
  | .unlock _ => Unit
  | .clientStore _ => Unit
  | .malloc _ => Option Mem
  | .encodeRgba _ _ _ _ _ => Int × BitVec 32
  | .storeTrailer _ _ => Unit
  | .allocateMetadata => Bool
  | .clock => Int
  | .newPipeline => Int × PipelineConfig × (Nat → Byte)

/-! ## The device -/

/-- `callback_ops` says whether its `notify` is there; the tracker is outside. -/
structure CameraDevice where
  camera_id : Int
  callback_ops : Option Bool
  is_initialized : Bool
  streams_configured : Bool
  pipeline : Option CameraPipeline
  output_stream : Option Stream
  pipeline_width : BitVec 32
  pipeline_height : BitVec 32
  last_config_width : BitVec 32
  last_config_height : BitVec 32
  temp_rgba : Option Mem
  temp_rgba_size : BitVec 32
  af_mode : Byte
  af_trigger : Byte
  af_trigger_handled : Bool

def AF_MODE_AUTO : Byte := 1
def AF_MODE_CONTINUOUS_PICTURE : Byte := 4
def AF_TRIGGER_IDLE : Byte := 0
def AF_TRIGGER_START : Byte := 1
def AF_TRIGGER_CANCEL : Byte := 2

/-- `camera_device_init` for camera `cameraId`. -/
def CameraDevice.init (cameraId : Int) : CameraDevice where
  camera_id := cameraId
  callback_ops := none
  is_initialized := false
  streams_configured := false
  pipeline := none
  output_stream := none
  pipeline_width := 0
  pipeline_height := 0
  last_config_width := 0
  last_config_height := 0
  temp_rgba := none
  temp_rgba_size := 0
  af_mode := AF_MODE_AUTO
  af_trigger := AF_TRIGGER_IDLE
  af_trigger_handled := false

abbrev Dev := StateT CameraDevice (Prog DevOp DevOp.Ans)

namespace CameraDevice

abbrev ask (o : DevOp) : Dev o.Ans := Prog.ask o

/-- A method of a pipeline object that is not the device's yet. -/
def runOn {α : Type} (p : CameraPipeline) (m : Pipe α) : Dev (α × CameraPipeline) := fun d =>
  embed DevOp.kernel (fun _ a => a) (m p) >>= fun r => pure (r, d)

/-- A method of `dev->pipeline`; the callers make sure that there is one. -/
def onPipeline {α : Type} (m : Pipe α) (absent : α) : Dev α := do
  match (← get).pipeline with
  | none => return absent
  | some p =>
    let r ← runOn p m
    modify fun d => { d with pipeline := some r.2 }
    return r.1

/-- `camera_device_initialize`. -/
def setCallbacks (notify : Bool) : Dev Int := do
  modify fun d => { d with callback_ops := some notify, is_initialized := true }
  return 0

/-! ## configure_streams -/

structure Selection where
  pipelineStream : Option Stream
  outputStream : Option Stream
  rgbaStream : Option Stream

/-- The choice made on one output stream. -/
def Selection.consider (sel : Selection) (stream : Stream) : Selection :=
  let sel := { sel with outputStream := some stream }
  if sel.pipelineStream.isNone ∧ stream.format ≠ .blob then
    if stream.format = .rgba8888 then
      { sel with pipelineStream := some stream, rgbaStream := some stream }
    else if sel.rgbaStream.isNone ∧ stream.format = .implementationDefined then
      { sel with rgbaStream := some stream }
    else { sel with pipelineStream := some stream }
  else sel

/-- The scan: a stream without pixels ends it with an error.  The streams scanned
before have their `max_buffers` set. -/
def scanStreams (sel : Selection) : List Stream → Option Selection × List Stream
  | [] => (some sel, [])
  | stream :: rest =>
    if stream.width = 0 ∨ stream.height = 0 then (none, stream :: rest)
    else if stream.stream_type = .output then
      let stream := { stream with max_buffers := 2 }
      let r := scanStreams (sel.consider stream) rest
      (r.1, stream :: r.2)
    else
      let r := scanStreams sel rest
      (r.1, stream :: r.2)

def Selection.choice (sel : Selection) : Option Stream :=
  if sel.rgbaStream.isSome then sel.rgbaStream else sel.pipelineStream

/-- IMPLEMENTATION_DEFINED is overridden to RGBA_8888. -/
def overrideFormat (stream : Stream) : Stream :=
  if stream.stream_type = .output ∧ stream.format = .implementationDefined then
    { stream with format := .rgba8888 }
  else stream

def pipelineConfig (cameraId : Int) (stream : Stream) : PipelineConfig where
  width := stream.width
  height := stream.height
  pixelFormat := if cameraId = 0 then 0x30314752 else 0x30314742
  bayerPattern := 3
  offset_x := 0
  offset_y := 0
  flipV := false
  enableISP := true
  blackLevel := 0
  wbGain := fun _ => 1
  gamma := point55
  enableAE := true
  enableAWB := true
  targetLuma := point55
  digitalGain := 6

/-- One empty result per drained frame. -/
def drainResults : List (BitVec 32) → Dev Unit
  | [] => pure ()
  | frame :: rest => do
    let _ ← ask (.processCaptureResult ⟨frame, none, [], 0⟩)
    drainResults rest

def drainInFlight : Dev Unit := do
  let n ← ask .count
  onlyIf (n > 0) do
    let frames ← ask .drainAll
    drainResults frames

def closePrevious : Dev Unit := do
  let _ ← onPipeline CameraPipeline.close 0
  modify fun d => { d with pipeline := none }

/-- A pipeline that failed to configure or start is closed and deleted. -/
def discardPipeline (p : CameraPipeline) : Dev Unit := do
  let _ ← runOn p CameraPipeline.close
  modify fun d => { d with pipeline := none }

/-- Configure and start the pipeline that was opened. -/
def startPipeline (plat : Platform) (sel : Selection) (stream : Stream) (opened : CameraPipeline) :
    Dev Int := do
  let set ← runOn opened
    (CameraPipeline.configure plat (pipelineConfig (← get).camera_id stream))
  if set.1 ≠ 0 then
    discardPipeline set.2
    return set.1
  else
    let started ← runOn set.2 CameraPipeline.startStreaming
    if started.1 ≠ 0 then
      discardPipeline started.2
      return started.1
    else
      modify fun d => { d with
        pipeline := some started.2, output_stream := sel.outputStream
        pipeline_width := stream.width, pipeline_height := stream.height
        last_config_width := stream.width, last_config_height := stream.height
        streams_configured := true }
      return 0
/-- The same capture size as last time, on a pipeline that is streaming. -/
def sameCapture (d : CameraDevice) (stream : Stream) : Prop :=
  d.last_config_width = stream.width ∧ d.last_config_height = stream.height ∧
    d.streams_configured = true ∧ ∃ p ∈ d.pipeline, p.mState = .streaming

instance (d : CameraDevice) (stream : Stream) : Decidable (sameCapture d stream) :=
  inferInstanceAs (Decidable (_ ∧ _ ∧ _ ∧ _))

/-- The full reconfiguration on the chosen stream; the format override follows a
successful `open`. -/
def reconfigure (plat : Platform) (sel : Selection) (stream : Stream) (streams : List Stream) :
    Dev (Int × List Stream) := do
  drainInFlight
  closePrevious
  let garbage ← ask .newPipeline
  let opened ← runOn (.new garbage.1 garbage.2.1 garbage.2.2)
    (CameraPipeline.openDev (← get).camera_id)
  if opened.1 ≠ 0 then return (-ENODEV, streams)
  else
    let ret ← startPipeline plat sel stream opened.2
    return (ret, streams.map overrideFormat)

/-- The return value and the streams as the call leaves them; `none` is the null
dereference of a list without a usable stream. -/
def configureStreams (plat : Platform) (streams : List Stream) : Dev (Option (Int × List Stream)) := do
  if streams.length = 0 ∨ streams.length > 20 then return some (-EINVAL, streams)
  else
    match scanStreams ⟨none, none, none⟩ streams with
    | (none, streams) => return some (-EINVAL, streams)
    | (some sel, streams) =>
      match sel.choice with
      | none => return none
      | some stream =>
        if sameCapture (← get) stream then return some (0, streams)
        else
          let r ← reconfigure plat sel stream streams
          return some r

/-! ## process_capture_request -/

def handleAf (plat : Platform) (settings : Option Settings) : Dev Unit := do
  modify fun d => match settings with
    | none => d
    | some s => { d with
        af_mode := s.afMode.getD d.af_mode, af_trigger := s.afTrigger.getD d.af_trigger }
  let d ← get
  onlyIf (d.pipeline.isSome ∧ (d.af_mode = AF_MODE_AUTO ∨ d.af_mode = AF_MODE_CONTINUOUS_PICTURE))
    (if d.af_trigger = AF_TRIGGER_START ∧ d.af_trigger_handled = false then do
      onPipeline (CameraPipeline.startAfScan plat) ()
      modify fun d => { d with af_trigger_handled := true }
    else onlyIf (d.af_trigger = AF_TRIGGER_CANCEL) do
      onPipeline CameraPipeline.cancelAf ()
      modify fun d => { d with af_trigger_handled := false })

/-- The wait for the acquire fence goes on whatever the poll says. -/
def waitFence (fence : Int) : Dev Unit :=
  onlyIf (fence ≥ 0) do
    let _ ← ask (.pollFence fence)
    let _ ← ask (.closeFence fence)
    return ()

/-- How the capture part ends: by a return from the whole request, or with
`frameCaptured`. -/
inductive CaptureEnd
  | exit (ret : Int)
  | goOn (frameCaptured : Bool)
  deriving DecidableEq, Repr

/-- Forget the frame and return. -/
def abandon (frameNum : BitVec 32) (ret : Int) : Dev CaptureEnd := do
  let _ ← ask (.remove frameNum)
  return .exit ret

/-- The branches for YCBCR_420_888 and for the other formats differ in the lock call. -/
def captureInto (plat : Platform) (ycbcr : Bool) (frameNum : BitVec 32) (stream : Stream)
    (handle : Nat) : Dev CaptureEnd := do
  let locked ← ask (.lock ycbcr handle stream.width stream.height)
  if locked then
    let r ← onPipeline (CameraPipeline.captureFrame plat true stream.format) (-EINVAL, id)
    let _ ← ask (.clientStore r.2)
    let _ ← ask (.unlock handle)
    if r.1 = 0 then return .goOn true
    else if r.1 = -EAGAIN then abandon frameNum (-EAGAIN)
    else return .goOn false
  else return .goOn false

/-- The temporary RGBA buffer, at the pipeline's size. -/
def ensureTempRgba : Dev Unit := do
  let d ← get
  let rgbaSize := d.pipeline_width * d.pipeline_height * 4
  onlyIf (d.temp_rgba.isNone ∨ d.temp_rgba_size < rgbaSize) do
    let m ← ask (.malloc rgbaSize)
    modify fun d => { d with temp_rgba := m, temp_rgba_size := rgbaSize }

/-- `encodeRGBA` and the trailer behind it. -/
def encodeBlob (rgba : Mem) (stream : Stream) : Dev Bool := do
  let d ← get
  let blobSize := stream.width * stream.height * 2
  let r ← ask (.encodeRgba rgba d.pipeline_width d.pipeline_height 90 blobSize)
  if r.1 = 0 ∧ r.2 > 0 then
    let _ ← ask (.storeTrailer (blobSize - 8) r.2)
    return true
  else return false

def captureBlob (plat : Platform) (frameNum : BitVec 32) (stream : Stream) (handle : Nat) :
    Dev CaptureEnd := do
  ensureTempRgba
  match (← get).temp_rgba with
  | none => return .goOn false
  | some m =>
    let r ← onPipeline (CameraPipeline.captureFrame plat true .rgba8888) (-EINVAL, id)
    modify fun d => { d with temp_rgba := some (r.2 m) }
    if r.1 = 0 then
      let locked ← ask (.lock false handle stream.width stream.height)
      if locked then
        let ok ← encodeBlob (r.2 m) stream
        let _ ← ask (.unlock handle)
        return .goOn ok
      else return .goOn false
    else if r.1 = -EAGAIN then abandon frameNum (-EAGAIN)
    else return .goOn false

/-- The format branches, once gralloc is there. -/
def captureFormat (plat : Platform) (frameNum : BitVec 32) (stream : Stream) (handle : Nat) :
    Dev CaptureEnd := do
  let gralloc ← ask .getGralloc
  if gralloc then
    match stream.format with
    | .blob => captureBlob plat frameNum stream handle
    | .ycbcr420_888 => captureInto plat true frameNum stream handle
    | _ => captureInto plat false frameNum stream handle
  else return .goOn false

/-- The auto-restart of a pipeline that `flush` stopped; 0 when there is nothing to do. -/
def restart : Dev Int := do
  match (← get).pipeline with
  | some p => if p.mState = .opened then onPipeline CameraPipeline.startStreaming 0 else return 0
  | none => return 0

def capture (plat : Platform) (frameNum : BitVec 32) (stream : Stream) (handle : Nat) :
    Dev CaptureEnd := do
  let d ← get
  if d.pipeline.isSome ∧ d.streams_configured = true then
    let ret ← restart
    if ret ≠ 0 then abandon frameNum (-ENODEV)
    else captureFormat plat frameNum stream handle
  else return .goOn false

/-- The metadata of a frame that was captured and not flushed. -/
def resultMetadata (frameNum : BitVec 32) (timestamp : Int) : Dev (Option ResultMetadata) := do
  let exposure ← onPipeline CameraPipeline.getExposure 2400
  let sensitivity ← onPipeline CameraPipeline.getGain 128
  let d ← get
  let allocated ← ask .allocateMetadata
  if allocated then
    return some ⟨frameNum, timestamp, exposure, sensitivity,
      (d.pipeline.map (·.mAfState)).getD 0, (d.pipeline.map (·.mFocusPosition)).getD 0⟩
  else return none

def notify (msg : NotifyMsg) : Dev Unit := do
  onlyIf ((← get).callback_ops = some true) do
    let _ ← ask (.notify msg)
    return ()

/-- The common tail: the shutter, the status and the one result. -/
def complete (frameNum : BitVec 32) (buf : StreamBuffer) (frameCaptured : Bool) : Dev Int := do
  let ts ← ask .clock
  let frameFlushed ← ask (.isError frameNum)
  let _ ← ask (.remove frameNum)
  onlyIf frameCaptured (notify (.shutter frameNum ts))
  onlyIf (!frameFlushed && !frameCaptured) (notify (.errorDevice frameNum))
  let status := if frameCaptured && !frameFlushed then BufferStatus.ok else .error
  let metadata ← (if frameCaptured && !frameFlushed then resultMetadata frameNum ts else pure none)
  let outputBuf := { buf with acquire_fence := -1, release_fence := -1, status := status }
  let _ ← ask (.processCaptureResult ⟨frameNum, metadata, [outputBuf], 1⟩)
  return 0

/-- A request that is tracked: focus, fence, capture and completion. -/
def serve (plat : Platform) (request : CaptureRequest) (buf : StreamBuffer) : Dev Int := do
  handleAf plat request.settings
  match buf.buffer with
  | none =>
    let _ ← ask (.remove request.frame_number)
    return -EINVAL
  | some handle =>
    waitFence buf.acquire_fence
    match ← capture plat request.frame_number buf.stream handle with
    | .exit ret => return ret
    | .goOn frameCaptured => complete request.frame_number buf frameCaptured

def processCaptureRequest (plat : Platform) (request : CaptureRequest) : Dev Int := do
  let d ← get
  if d.is_initialized = false ∨ d.callback_ops = none then return -ENOSYS
  else
    match request.output_buffers with
    | [] => return -EINVAL
    | buf :: _ =>
      let marked ← ask (.isError request.frame_number)
      if marked then
        let _ ← ask (.remove request.frame_number)
        return -EAGAIN
      else
        let _ ← ask (.add request.frame_number buf.buffer)
        serve plat request buf

/-! ## flush and close -/

def flush : Dev Int := do
  let d ← get
  onlyIf (d.pipeline.isSome ∧ d.streams_configured = true) do
    let _ ← onPipeline CameraPipeline.stopStreaming 0
    return ()
  let _ ← ask .markAllAsError
  let _ ← ask .drainAll
  return 0

def close : Dev Int := do
  modify fun d => { d with temp_rgba := none, temp_rgba_size := 0 }
  let _ ← ask .markAllAsError
  closePrevious
  return 0

end CameraDevice

abbrev DeviceEnv := Prog.Env DevOp DevOp.Ans

/-- Surroundings in which every call succeeds and no frame is marked. -/
def deviceGrants : DeviceEnv := fun n o =>
  match o with
  | .kernel k => kernelGrants n k
  | .isError _ => false
  | .add _ _ => ()
  | .remove _ => true
  | .markAllAsError => ()
  | .drainAll => []
  | .count => 0
  | .notify _ => ()
  | .processCaptureResult _ => ()
  | .pollFence _ => .ready true
  | .closeFence _ => ()
  | .getGralloc => true
  | .lock _ _ _ _ => true
  | .unlock _ => ()
  | .clientStore _ => ()
  | .malloc _ => some fun _ => 0
  | .encodeRgba _ _ _ _ _ => (0, 1)
  | .storeTrailer _ _ => ()
  | .allocateMetadata => true
  | .clock => 0
  | .newPipeline => (0, CameraDevice.pipelineConfig 0 ⟨0, .output, 2, 2, .rgba8888, 2⟩, fun _ => 0)

end MochaHal.Camera
