import MochaHal.Lib.Prog
import MochaHal.Camera.Tuning

/-! The capture pipeline of `camera/CameraPipeline.cpp`.  Each method is a program
over the pipeline's fields whose calls to the kernel and the allocator are
answered from outside (`Prog`), so every pattern of failures is a choice of
answers.  A failed call answers its `errno`, which is never 0.

`mBuffers` has four slots in the source.  When the driver grants more buffers the
mapping loop of `configure` goes on behind the array, over `mBufferCount`,
`mRgbBuffer` and the fields that follow.  The model does not follow that: its slots
from 4 on only record the stores.  It is the source up to grants of four buffers,
and what is said of the fields themselves is said for such grants (`GrantsFit`). -/

namespace MochaHal.Camera
open MochaHal.Loop MochaHal.Demosaic MochaHal.ColorConv
open MochaHal.Prog (onlyIf)

def ENODEV : Int := 19
def EBUSY : Int := 16
def ENOMEM : Int := 12
def EINVAL : Int := 22
def EAGAIN : Int := 11
def ENOSYS : Int := 38

/-! ## Calls -/

abbrev Errno := { n : Nat // 0 < n }

inductive Memory
  | mmap
  | userptr
  deriving DecidableEq, Repr

inductive Control
  | exposure
  | gain
  | focusAbsolute
  deriving DecidableEq, Repr

inductive PollReply
  | failed (e : Errno)
  | timeout
  | ready (pollin : Bool)

/-- A dequeued buffer: its index, the bytes used and what the device wrote there. -/
structure Dequeued where
  index : BitVec 32
  bytesused : BitVec 32
  data : Mem

inductive KernelOp
  | openDevice (video : Nat)
  | queryCap
  | closeDevice
  | setFormat (width height pixelFormat : BitVec 32)
  | requestBuffers (count : BitVec 32) (memory : Memory)
  | queryBuf (index : Nat) (memory : Memory)
  | mmap (length offset : BitVec 32)
  | munmap (start : Nat) (length : BitVec 32)
  | queueBuf (index : Nat) (memory : Memory)
  | dequeueBuf (memory : Memory)
  | streamOn
  | streamOff
  | poll (timeoutMs : Nat)
  | setControl (id : Control) (value : Int)
  | getControl (id : Control)
  /-- `realloc` of the Bayer buffer and `new` of the RGB buffer: uninitialised bytes. -/
  | realloc (size : BitVec 32)
  | newArray (size : BitVec 32)

@[reducible] def KernelOp.Ans : KernelOp → Type
  | .openDevice _ => Except Errno Nat
  | .queryCap => Except Errno (Bool × Bool)
  | .closeDevice => Unit
  | .setFormat _ _ _ => Except Errno Unit
  | .requestBuffers _ _ => Except Errno (BitVec 32)
  | .queryBuf _ _ => Except Errno (BitVec 32 × BitVec 32)
  | .mmap _ _ => Option Nat
  | .munmap _ _ => Unit
  | .queueBuf _ _ => Except Errno Unit
  | .dequeueBuf _ => Except Errno Dequeued
  | .streamOn => Except Errno Unit
  | .streamOff => Except Errno Unit
  | .poll _ => PollReply
  | .setControl _ _ => Except Errno Unit
  | .getControl _ => Except Errno Int
  | .realloc _ => Option Mem
  | .newArray _ => Mem

/-! ## Fields -/

inductive PipelineState
  | closed
  | opened
  | streaming
  deriving DecidableEq, Repr

/-- The fields that some method reads. -/
structure PipelineConfig where
  width : BitVec 32
  height : BitVec 32
  pixelFormat : BitVec 32
  bayerPattern : Byte
  offset_x : Byte
  offset_y : Byte
  flipV : Bool
  enableISP : Bool
  blackLevel : BitVec 16
  wbGain : Fin 4 → Rat
  gamma : Rat
  enableAE : Bool
  enableAWB : Bool
  targetLuma : Rat
  digitalGain : Rat

/-- 0.55f, the gamma and the target luma that the HAL configures. -/
def point55 : Rat := ⟨11, 20, by decide, by decide⟩

structure V4l2Buffer where
  start : Option Nat
  length : BitVec 32
  allocated : Bool
  deriving DecidableEq, Repr

structure CameraPipeline where
  mFd : Int
  mCameraId : Int
  mState : PipelineState
  mStreaming : Bool
  mDemosaic : Option DemosaicNEON
  mColorConv : Option ColorConvNEON
  mConfig : PipelineConfig
  mBuffers : Nat → V4l2Buffer
  mBufferCount : Int
  mRgbBuffer : Option Mem
  mRgbBufferSize : BitVec 32
  mCurrentExposure : Int
  mCurrentGain : Int
  mAwbGains : Fin 4 → Rat
  mHasAwbInit : Bool
  mGammaLut : Nat → Byte
  mLastGamma : Rat
  mFocusPosition : Int
  mAfState : Int

/-- The constructor; it leaves `mCameraId`, `mConfig` and `mGammaLut` as they are in memory. -/
def CameraPipeline.new (cameraId : Int) (config : PipelineConfig) (lut : Nat → Byte) :
    CameraPipeline where
  mFd := -1
  mCameraId := cameraId
  mState := .closed
  mStreaming := false
  mDemosaic := none
  mColorConv := none
  mConfig := config
  mBuffers := fun _ => ⟨none, 0, false⟩
  mBufferCount := 0
  mRgbBuffer := none
  mRgbBufferSize := 0
  mCurrentExposure := 2400
  mCurrentGain := 150
  mAwbGains := fun _ => 1
  mHasAwbInit := false
  mGammaLut := lut
  mLastGamma := 0
  mFocusPosition := 0
  mAfState := 0

inductive PixelFormat
  | rgba8888
  | implementationDefined
  | blob
  | ycbcr420_888
  | yv12
  | other (n : Nat)
  deriving DecidableEq, Repr

/-- The code outside the sources: the bytes behind `pos_color` and the gamma curve. -/
structure Platform where
  beyond : Nat → Byte
  lut : Rat → Nat → Byte

abbrev Pipe := StateT CameraPipeline (Prog KernelOp KernelOp.Ans)

abbrev ask (o : KernelOp) : Pipe o.Ans := Prog.ask o

namespace CameraPipeline

/-! ## Opening and controls -/

def initFocuser : Pipe Unit := modify fun p => { p with mFocusPosition := -1 }

/-- `::close(mFd); mFd = -1`. -/
def closeFd : Pipe Unit := do
  let _ ← ask .closeDevice
  modify fun p => { p with mFd := -1 }

def openDev (cameraId : Int) : Pipe Int := do
  if (← get).mState ≠ .closed then return -EBUSY
  else
    modify fun p => { p with mCameraId := cameraId }
    match ← ask (.openDevice (if cameraId = 0 then 0 else 1)) with
    | .error _ =>
      modify fun p => { p with mFd := -1 }
      return -ENODEV
    | .ok fd =>
      modify fun p => { p with mFd := fd }
      match ← ask .queryCap with
      | .error _ =>
        closeFd
        return -ENODEV
      | .ok (videoCapture, streaming) =>
        if !videoCapture || !streaming then
          closeFd
          return -ENODEV
        else
          onlyIf (cameraId = 0) initFocuser
          modify fun p => { p with mState := .opened }
          return 0

/-- The return value of an `ioctl` that has no other result. -/
def ioctlRet : Except Errno Unit → Int
  | .ok _ => 0
  | .error _ => -1

/-- `VIDIOC_S_CTRL`.  What the driver takes is stored. -/
def setCtrl (id : Control) (value : Int) (store : CameraPipeline → CameraPipeline) : Pipe Int := do
  let ret ← ask (.setControl id value)
  onlyIf (ioctlRet ret = 0) (modify store)
  return ioctlRet ret

/-- `VIDIOC_G_CTRL`.  What the driver answers is stored; without an answer the field tells. -/
def getCtrl (id : Control) (field : CameraPipeline → Int) (store : Int → CameraPipeline → CameraPipeline) :
    Pipe Int := do
  match ← ask (.getControl id) with
  | .ok v =>
    modify (store v)
    return v
  | .error _ => return field (← get)

def setExposure (exposure : Int) : Pipe Int :=
  setCtrl .exposure exposure fun p => { p with mCurrentExposure := exposure }

def setGain (gain : Int) : Pipe Int := setCtrl .gain gain fun p => { p with mCurrentGain := gain }

def getExposure : Pipe Int := getCtrl .exposure mCurrentExposure fun v p => { p with mCurrentExposure := v }

def getGain : Pipe Int := getCtrl .gain mCurrentGain fun v p => { p with mCurrentGain := v }

def setFocus (position : Int) : Pipe Int :=
  let position := if position < 0 then 0 else position
  let position := if position > 1023 then 1023 else position
  setCtrl .focusAbsolute position fun p => { p with mFocusPosition := position }

/-! ## Buffers -/

def setBuffer (i : Nat) (f : V4l2Buffer → V4l2Buffer) : Pipe Unit :=
  modify fun p => { p with mBuffers := Function.update p.mBuffers i (f (p.mBuffers i)) }

/-- `if (start) munmap(start, length)`. -/
def munmapStart (b : V4l2Buffer) : Pipe Unit :=
  match b.start with
  | some a => do
    let _ ← ask (.munmap a b.length)
    return ()
  | none => pure ()

/-- Slots `i, i+1, ..., i+n-1`: those in `drop` are unmapped, if they are mapped,
and cleared.  The three loops that do this differ in which slots they clear. -/
def unmapSlots (drop : V4l2Buffer → Bool) : (n i : Nat) → Pipe Unit
  | 0, _ => pure ()
  | n + 1, i => do
    let b := (← get).mBuffers i
    onlyIf (drop b) do
      munmapStart b
      setBuffer i fun b => { b with start := none, allocated := false }
    unmapSlots drop n (i + 1)

/-- The cleanup of a failed mapping loop: every slot before `i`, then the count. -/
def unmapAll (i : Nat) : Pipe Unit := do
  unmapSlots (fun _ => true) i 0
  modify fun p => { p with mBufferCount := 0 }

/-- The mapping loop of `configure` from slot `i` on, `n` slots to go; 0 is success. -/
def mapBuffers : (n i : Nat) → Pipe Int
  | 0, _ => pure 0
  | n + 1, i => do
    match ← ask (.queryBuf i .mmap) with
    | .error e =>
      unmapAll i
      return -e.val
    | .ok (length, offset) =>
      setBuffer i fun b => { b with length := length }
      match ← ask (.mmap length offset) with
      | none =>
        setBuffer i fun b => { b with start := none }
        unmapAll i
        return -ENOMEM
      | some a =>
        setBuffer i fun b => { b with start := some a, allocated := true }
        mapBuffers n (i + 1)

/-- The loop of `startStreaming`. -/
def queueBuffers : (n i : Nat) → Pipe Int
  | 0, _ => pure 0
  | n + 1, i => do
    match ← ask (.queueBuf i .mmap) with
    | .error e => return -e.val
    | .ok _ => queueBuffers n (i + 1)

/-! ## Configuration -/

def demosaicParams (c : PipelineConfig) : DemosaicParams :=
  ⟨c.width.setWidth 16, c.height.setWidth 16, c.bayerPattern, c.offset_x, c.offset_y, c.blackLevel⟩

/-- The `realloc` that `initialize` makes of a new object's buffer. -/
def reallocBayer (params : DemosaicParams) : Pipe (Option Mem) :=
  if params.width = 0 ∨ params.height = 0 then pure none
  else ask (.realloc (BitVec.ofNat 32 (params.width.toNat * params.height.toNat + 80)))

/-- The `enableISP` block of `configure`. -/
def initIsp (config : PipelineConfig) : Pipe Int := do
  let params := demosaicParams config
  let buf ← reallocBayer params
  let d := DemosaicNEON.initialize ⟨⟨0, 0, 0, 0, 0, 0⟩, false, none, 0⟩ params buf
  modify fun p => { p with mDemosaic := some d.2 }
  if d.1 ≠ 0 then return d.1
  else
    let c := ColorConvNEON.new.initialize (config.width.setWidth 16) (config.height.setWidth 16)
    modify fun p => { p with mColorConv := some c.2 }
    if c.1 ≠ 0 then return c.1
    else
      let size := config.width * config.height * 3
      let rgb ← ask (.newArray size)
      modify fun p => { p with mRgbBuffer := some rgb, mRgbBufferSize := size }
      return 0

/-- The gamma table is rebuilt when the gamma changed. -/
def rebuildGammaLut (plat : Platform) (gamma : Rat) : Pipe Unit := do
  modify fun p => { p with mHasAwbInit := false }
  onlyIf ((← get).mLastGamma ≠ gamma)
    (modify fun p => { p with mGammaLut := plat.lut gamma, mLastGamma := gamma })

/-- `configure` once the buffers are mapped. -/
def finishConfigure (plat : Platform) (config : PipelineConfig) : Pipe Int := do
  if config.enableISP then
    let ret ← initIsp config
    if ret ≠ 0 then return ret
    else
      rebuildGammaLut plat config.gamma
      return 0
  else
    rebuildGammaLut plat config.gamma
    return 0

def configure (plat : Platform) (config : PipelineConfig) : Pipe Int := do
  if (← get).mState = .streaming then return -EBUSY
  else
    modify fun p => { p with mConfig := config }
    if (← get).mFd < 0 then return -ENODEV
    else
      match ← ask (.setFormat config.width config.height config.pixelFormat) with
      | .error e => return -e.val
      | .ok _ =>
        match ← ask (.requestBuffers 2 .mmap) with
        | .error e => return -e.val
        | .ok count =>
          if count < 2 then return -ENOMEM
          else
            modify fun p => { p with mBufferCount := count.toInt }
            let ret ← mapBuffers count.toInt.toNat 0
            if ret ≠ 0 then return ret
            else finishConfigure plat config

/-! ## Streaming -/

def startStreaming : Pipe Int := do
  if (← get).mState ≠ .opened then return -EINVAL
  else
    let ret ← queueBuffers (← get).mBufferCount.toNat 0
    if ret ≠ 0 then return ret
    else
      match ← ask .streamOn with
      | .error e => return -e.val
      | .ok _ =>
        let _ ← setExposure (← get).mCurrentExposure
        let _ ← setGain (← get).mCurrentGain
        modify fun p => { p with mStreaming := true, mState := .streaming }
        return 0

def stopStreaming : Pipe Int := do
  if !(← get).mStreaming then return 0
  else
    let _ ← ask .streamOff
    unmapSlots (fun b => b.start.isSome) (← get).mBufferCount.toNat 0
    modify fun p => { p with mBufferCount := 0, mStreaming := false, mState := .opened }
    return 0

def close : Pipe Int := do
  let _ ← stopStreaming
  unmapSlots (fun b => b.start.isSome && b.allocated) (← get).mBufferCount.toNat 0
  modify fun p => { p with mBufferCount := 0 }
  onlyIf (← get).mRgbBuffer.isSome
    (modify fun p => { p with mRgbBuffer := none, mRgbBufferSize := 0 })
  onlyIf (0 ≤ (← get).mFd) closeFd
  modify fun p => { p with mState := .closed }
  return 0

/-! ## Frames -/

def doAutoExposure (rgb : Mem) : Pipe Unit := do
  let p ← get
  let luma := lumaSum rgb p.mConfig.width.toInt p.mConfig.height.toInt
  if luma.2 = 0 then return ()
  else
    let new := aeSelect p.mCurrentExposure p.mCurrentGain
      (aeRatio p.mConfig.targetLuma ((luma.1 : Rat) / luma.2 / 255))
    onlyIf (new.2 ≠ p.mCurrentGain) do
      let _ ← setGain new.2
      return ()
    onlyIf (new.1 ≠ p.mCurrentExposure) do
      let _ ← setExposure new.1
      return ()

def doAutoWhiteBalance (rgb : Mem) : Pipe Unit := do
  let p ← get
  match awbSelect p.mAwbGains p.mHasAwbInit rgb p.mConfig.width.toInt p.mConfig.height.toInt with
  | none => return ()
  | some gains => modify fun p => { p with mAwbGains := gains, mHasAwbInit := true }

/-- The exposure and white balance updates that are switched on. -/
def autoUpdate (rgb : Mem) : Pipe Unit := do
  onlyIf (← get).mConfig.enableAE (doAutoExposure rgb)
  onlyIf (← get).mConfig.enableAWB (doAutoWhiteBalance rgb)

/-- `mDemosaic->process(bayerData, mRgbBuffer)` and the updates after it. -/
def demosaicFrame (plat : Platform) (bayerData : Option Mem) : Pipe Unit := do
  let p ← get
  match p.mDemosaic with
  | none => return ()
  | some d =>
    let r := d.process plat.beyond bayerData p.mRgbBuffer
    modify fun p => { p with mDemosaic := some r.1, mRgbBuffer := r.2 }
    match r.2 with
    | none => return ()
    | some rgb => autoUpdate rgb

/-- The white balance gain of channel `i`. -/
def wbOf (p : CameraPipeline) (i : Fin 4) : Rat :=
  if p.mConfig.enableAWB then p.mAwbGains i else p.mConfig.wbGain i

/-- The product `mConfig.width * mConfig.height` as the `int` of the pixel loops. -/
def pixelTotal (p : CameraPipeline) : Int := (p.mConfig.width * p.mConfig.height).toInt

/-- Gains and gamma applied to `mRgbBuffer` in place. -/
def balanceRgb (plat : Platform) (rG gG bG : Rat) (always : Bool) : Pipe Unit :=
  modify fun p =>
    let gain (m : Mem) : Mem :=
      if always ∨ rG ≠ 1 ∨ gG ≠ 1 ∨ bG ≠ 1 then applyGain rG gG bG p.pixelTotal m else m
    { p with mRgbBuffer := p.mRgbBuffer.map fun m =>
        applyGamma (plat.lut p.mConfig.gamma) p.pixelTotal (gain m) }

/-- What a call writes to the memory at the output pointer. -/
abbrev Stores := Mem → Mem

/-- `memcpy(output, src, n)`. -/
def copyOut (src : Mem) (n : Int) : Stores := fun out i => if 0 ≤ i ∧ i < n then src i else out i

def processBayerToYuv (plat : Platform) (bayerData : Option Mem) (outputFormat : PixelFormat) :
    Pipe (Int × Stores) := do
  match bayerData, (← get).mDemosaic, (← get).mColorConv with
  | some bayerData, some _, some conv =>
    demosaicFrame plat (some bayerData)
    let p ← get
    let rG := p.wbOf wbR * p.mConfig.digitalGain
    let gG := p.wbOf wbG * p.mConfig.digitalGain
    let bG := p.wbOf wbB * p.mConfig.digitalGain
    match outputFormat with
    | .ycbcr420_888 =>
      balanceRgb plat rG gG bG false
      let uvPlane : Int := (p.mConfig.width * p.mConfig.height).toNat
      return (0, conv.rgbToNv12 (← get).mRgbBuffer 0 uvPlane)
    | .rgba8888 | .implementationDefined =>
      return (0, rgbToRgbaWbGamma p.mRgbBuffer p.mConfig.width p.mConfig.height rG gG bG
        p.mGammaLut p.mConfig.flipV)
    | _ =>
      balanceRgb plat rG gG bG false
      match (← get).mRgbBuffer with
      | some rgb => return (0, copyOut rgb p.mRgbBufferSize.toNat)
      | none => return (0, id)
  | _, _, _ => return (-EINVAL, id)

/-- The poll loop of `captureFrame` with `n` time-outs left; 0 when a frame is ready. -/
def waitFrame : Nat → Pipe Int
  | 0 => pure (-EAGAIN)
  | n + 1 => do
    match ← ask (.poll 300) with
    | .failed e => return -e.val
    | .timeout => waitFrame n
    | .ready pollin => if pollin then return 0 else return -EAGAIN

/-- The comparison `buf.index >= mBufferCount` is made on unsigned values. -/
def indexOutside (index : BitVec 32) (count : Int) : Prop := BitVec.ofInt 32 count ≤ index

instance (index : BitVec 32) (count : Int) : Decidable (indexOutside index count) :=
  inferInstanceAs (Decidable (_ ≤ _))

/-- What `mBuffers[index].start` points to after the device has filled it. -/
def frameAt (p : CameraPipeline) (buf : Dequeued) : Option Mem :=
  (p.mBuffers buf.index.toNat).start.map fun _ => buf.data

/-- The ISP path, or the raw copy when it is off. -/
def processBuffer (plat : Platform) (buf : Dequeued) (outputFormat : PixelFormat) :
    Pipe (Int × Stores) := do
  let p ← get
  let frame := p.frameAt buf
  if p.mConfig.enableISP ∧ p.mDemosaic.isSome ∧ p.mColorConv.isSome then
    processBayerToYuv plat frame outputFormat
  else
    match frame with
    | some data => return (0, copyOut data buf.bytesused.toNat)
    | none => return (0, id)

/-- The frame processed into the client's buffer, then the buffer queued again. -/
def captureFrame (plat : Platform) (outputBuffer : Bool) (outputFormat : PixelFormat) :
    Pipe (Int × Stores) := do
  if (← get).mState ≠ .streaming then return (-EINVAL, id)
  else if !outputBuffer then return (-EINVAL, id)
  else
    let ready ← waitFrame 6
    if ready ≠ 0 then return (ready, id)
    else
      match ← ask (.dequeueBuf .mmap) with
      | .error e => return (-e.val, id)
      | .ok buf =>
        if indexOutside buf.index (← get).mBufferCount then return (-EINVAL, id)
        else
          let r ← processBuffer plat buf outputFormat
          match ← ask (.queueBuf buf.index.toNat .mmap) with
          | .error e => return (-e.val, r.2)
          | .ok _ => return r

/-! ## Autofocus -/

/-- The energy of a frame, 0 when the ISP is off. -/
def afEnergy (plat : Platform) (buf : Dequeued) : Pipe Int := do
  let p ← get
  if p.mConfig.enableISP ∧ p.mDemosaic.isSome ∧ p.mColorConv.isSome then
    demosaicFrame plat (p.frameAt buf)
    let p ← get
    balanceRgb plat (p.wbOf wbR) (p.wbOf wbG) (p.wbOf wbB) true
    let p ← get
    return sobelEnergyNw p.mRgbBuffer p.mConfig.width.toInt p.mConfig.height.toInt
  else return 0

def captureForAf (plat : Platform) : Pipe Int := do
  if (← get).mState ≠ .streaming then return -EINVAL
  else
    match ← ask (.poll 500) with
    | .ready true =>
      match ← ask (.dequeueBuf .userptr) with
      | .error e => return -e.val
      | .ok buf =>
        if indexOutside buf.index (← get).mBufferCount then return -EINVAL
        else
          let energy ← afEnergy plat buf
          match ← ask (.queueBuf buf.index.toNat .userptr) with
          | .error e => return -e.val
          | .ok _ => return energy
    | _ => return -EAGAIN

/-- One position of a sweep: `best` is the pair of `bestEnergy` and `bestPos`. -/
def afProbe (plat : Platform) (best : Int × Int) (pos : Int) : Pipe (Int × Int) := do
  let _ ← setFocus pos
  let energy ← captureForAf plat
  if energy > best.1 then return (energy, pos) else return best

def afSweep (plat : Platform) : List Int → Int × Int → Pipe (Int × Int)
  | [], best => pure best
  | pos :: rest, best => do
    let best ← afProbe plat best pos
    afSweep plat rest best

/-- The positions `a, a + d, ...` of a sweep up to `b`. -/
def sweepRange (d a b : Int) : List Int :=
  (List.range ((b - a) / d + 1).toNat).map fun k => a + d * (k : Int)

def startAfScan (plat : Platform) : Pipe Unit := do
  if (← get).mState ≠ .streaming then modify fun p => { p with mAfState := 0 }
  else
    modify fun p => { p with mAfState := 1 }
    let best ← afSweep plat (sweepRange 50 140 640) (0, 400)
    let fineStart := if best.2 - 50 < 140 then 140 else best.2 - 50
    let fineEnd := if best.2 + 50 > 640 then 640 else best.2 + 50
    let best ← afFine plat (sweepRange 10 fineStart fineEnd) best
    let _ ← setFocus best.2
    modify fun p => { p with mAfState := 4 }
where
  /-- The fine sweep skips the position that is the best one when it gets there. -/
  afFine (plat : Platform) : List Int → Int × Int → Pipe (Int × Int)
    | [], best => pure best
    | pos :: rest, best => do
      if pos = best.2 then afFine plat rest best
      else
        let best ← afProbe plat best pos
        afFine plat rest best

def cancelAf : Pipe Unit := do
  let _ ← setFocus 0
  modify fun p => { p with mAfState := 0 }

end CameraPipeline

/-! ## A cooperative platform -/

abbrev KernelEnv := Prog.Env KernelOp KernelOp.Ans

/-- A kernel that grants every call, two buffers and a dark frame. -/
def kernelGrants : KernelEnv := fun _ o =>
  match o with
  | .openDevice _ => .ok 3
  | .queryCap => .ok (true, true)
  | .closeDevice => ()
  | .setFormat _ _ _ => .ok ()
  | .requestBuffers _ _ => .ok 2
  | .queryBuf _ _ => .ok (16, 0)
  | .mmap _ _ => some 4096
  | .munmap _ _ => ()
  | .queueBuf _ _ => .ok ()
  | .dequeueBuf _ => .ok ⟨0, 16, fun _ => 0⟩
  | .streamOn => .ok ()
  | .streamOff => .ok ()
  | .poll _ => .ready true
  | .setControl _ _ => .ok ()
  | .getControl _ => .ok 100
  | .realloc _ => some fun _ => 0
  | .newArray _ => fun _ => 0

/-- The gamma curve and trailing constants do not matter to these runs. -/
def flatPlatform : Platform := ⟨fun _ => 0, fun _ _ => 0⟩

end MochaHal.Camera
