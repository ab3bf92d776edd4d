import MochaHal.Camera.Pipeline

/-! What the methods that take a frame call and what they leave alone.  `setup` forgets the
fields that metering, focusing and pixel passes write; `captureFrame_confined`,
`captureForAf_confined` and `startAfScan_confined` say that everything else is as before,
whatever the kernel answers, and that nothing is mapped or unmapped. -/

namespace MochaHal.Camera
open MochaHal.Prog MochaHal.Demosaic MochaHal.ColorConv

/-- Calls that map and unmap nothing. -/
def NoMapping : KernelOp → Prop
  | .mmap _ _ => False
  | .munmap _ _ => False
  | _ => True

/-- Controls, the wait for a frame and memory. -/
def Bufferless : KernelOp → Prop
  | .setControl _ _ | .getControl _ | .poll _ | .realloc _ | .newArray _ => True
  | _ => False

theorem Bufferless.noMapping {o : KernelOp} (h : Bufferless o) : NoMapping o := by
  cases o with
  | mmap _ _ => exact h.elim
  | munmap _ _ => exact h.elim
  | _ => trivial

namespace CameraPipeline

/-! ## What a frame leaves alone -/

/-- A buffer without its contents. -/
def blank (m : Option Mem) : Option Mem := m.map fun _ _ => 0

def forgetBayer (d : DemosaicNEON) : DemosaicNEON := { d with mBayerBuf := blank d.mBayerBuf }

/-- The pipeline without what a frame changes: metering, focus and pixels. -/
def setup (p : CameraPipeline) : CameraPipeline :=
  { p with
    mCurrentExposure := 0, mCurrentGain := 0, mAwbGains := fun _ => 1, mHasAwbInit := false
    mFocusPosition := 0, mAfState := 0
    mDemosaic := p.mDemosaic.map forgetBayer, mRgbBuffer := blank p.mRgbBuffer }

section

variable {id : Control}

theorem setCtrl_confined {value : Int} {store : CameraPipeline → CameraPipeline}
    (hstore : ∀ p, setup (store p) = setup p) : Confined Bufferless setup (setCtrl id value store) :=
  .bind (confined_ask trivial) fun _ => .bind (onlyIf_confined (confined_modify hstore)) fun _ => confined_pure _

theorem getCtrl_confined {field : CameraPipeline → Int} {store : Int → CameraPipeline → CameraPipeline}
    (hstore : ∀ v p, setup (store v p) = setup p) : Confined Bufferless setup (getCtrl id field store) := by
  refine .bind (confined_ask trivial) fun r => ?_
  cases r with
  | error e => exact .bind confined_get fun _ => confined_pure _
  | ok v => exact .bind (confined_modify (hstore v)) fun _ => confined_pure _

end

theorem setExposure_confined (e : Int) : Confined Bufferless setup (setExposure e) := setCtrl_confined fun _ => rfl

theorem setGain_confined (g : Int) : Confined Bufferless setup (setGain g) := setCtrl_confined fun _ => rfl

theorem setFocus_confined (pos : Int) : Confined Bufferless setup (setFocus pos) := setCtrl_confined fun _ => rfl

theorem getExposure_confined : Confined Bufferless setup getExposure := getCtrl_confined fun _ _ => rfl

theorem getGain_confined : Confined Bufferless setup getGain := getCtrl_confined fun _ _ => rfl

theorem doAutoExposure_confined (rgb : Mem) : Confined Bufferless setup (doAutoExposure rgb) := by
  refine .bind confined_get fun p => .ite (confined_pure _) ?_
  refine .bind (onlyIf_confined (.bind (setGain_confined _) fun _ => confined_pure _)) fun _ => ?_
  exact onlyIf_confined (.bind (setExposure_confined _) fun _ => confined_pure _)

theorem doAutoWhiteBalance_confined (rgb : Mem) : Confined Bufferless setup (doAutoWhiteBalance rgb) := by
  refine .bind confined_get fun p => ?_
  cases awbSelect p.mAwbGains p.mHasAwbInit rgb p.mConfig.width.toInt p.mConfig.height.toInt with
  | none => exact confined_pure _
  | some gains => exact confined_modify fun _ => rfl

theorem autoUpdate_confined (rgb : Mem) : Confined Bufferless setup (autoUpdate rgb) := by
  refine .bind confined_get fun _ => .bind (onlyIf_confined (doAutoExposure_confined rgb)) fun _ => ?_
  exact .bind confined_get fun _ => onlyIf_confined (doAutoWhiteBalance_confined rgb)

/-- A processed frame changes the contents of the two buffers only. -/
theorem process_keeps (beyond : Nat → Byte) (d : DemosaicNEON) (inp rgb : Option Mem) :
    forgetBayer (d.process beyond inp rgb).1 = forgetBayer d ∧
      blank (d.process beyond inp rgb).2 = blank rgb := by
  unfold DemosaicNEON.process
  split
  · next hbuf => simp [forgetBayer, blank, hbuf]
  · exact ⟨rfl, rfl⟩

theorem demosaicFrame_keeps (plat : Platform) (frame : Option Mem) :
    Keeps setup (demosaicFrame plat frame) := by
  intro p
  unfold demosaicFrame
  rw [post_stateBind, post_get]
  dsimp only
  cases hd : p.mDemosaic with
  | none => exact rfl
  | some d =>
    have hk := process_keeps plat.beyond d frame p.mRgbBuffer
    dsimp only
    rw [post_stateBind, post_modify]
    generalize d.process plat.beyond frame p.mRgbBuffer = r at hk ⊢
    obtain ⟨d', rgb⟩ := r
    have hs : setup { p with mDemosaic := some d', mRgbBuffer := rgb } = setup p := by
      simp [setup, hd, hk.1, hk.2]
    cases rgb with
    | none => exact hs
    | some rgb => exact (autoUpdate_confined rgb).keeps.post fun q hq => hq.trans hs

theorem demosaicFrame_confined (plat : Platform) (frame : Option Mem) :
    Confined Bufferless setup (demosaicFrame plat frame) := by
  refine ⟨.bind only_get fun p => ?_, demosaicFrame_keeps plat frame⟩
  cases p.mDemosaic with
  | none => exact only_pure _
  | some d =>
    refine .bind (only_modify _) fun _ => ?_
    cases (d.process plat.beyond frame p.mRgbBuffer).2 with
    | none => exact only_pure _
    | some rgb => exact (autoUpdate_confined rgb).only

theorem balanceRgb_confined (plat : Platform) (r g b : Rat) (always : Bool) :
    Confined Bufferless setup (balanceRgb plat r g b always) :=
  confined_modify fun p => by simp [setup, blank, Function.comp_def]

theorem processBayerToYuv_confined (plat : Platform) (frame : Option Mem) (fmt : PixelFormat) :
    Confined Bufferless setup (processBayerToYuv plat frame fmt) := by
  refine .bind confined_get fun p => .bind confined_get fun p' => ?_
  split
  · refine .bind (demosaicFrame_confined plat _) fun _ => .bind confined_get fun p => ?_
    dsimp only
    split
    · exact .bind (balanceRgb_confined plat _ _ _ _) fun _ => .bind confined_get fun _ => confined_pure _
    · exact confined_pure _
    · exact confined_pure _
    · refine .bind (balanceRgb_confined plat _ _ _ _) fun _ => .bind confined_get fun p => ?_
      split
      · exact confined_pure _
      · exact confined_pure _
  · exact confined_pure _

theorem waitFrame_confined (n : Nat) : Confined Bufferless setup (waitFrame n) := by
  induction n with
  | zero => exact confined_pure _
  | succ n ih =>
    refine .bind (confined_ask trivial) fun r => ?_
    cases r with
    | failed e => exact confined_pure _
    | timeout => exact ih
    | ready pollin => exact .ite (confined_pure _) (confined_pure _)

theorem processBuffer_confined (plat : Platform) (buf : Dequeued) (fmt : PixelFormat) :
    Confined Bufferless setup (processBuffer plat buf fmt) := by
  refine .bind confined_get fun p => .ite (processBayerToYuv_confined plat _ _) ?_
  split
  · exact confined_pure _
  · exact confined_pure _

theorem captureFrame_confined (plat : Platform) (out : Bool) (fmt : PixelFormat) :
    Confined NoMapping setup (captureFrame plat out fmt) := by
  refine .bind confined_get fun p => .ite (confined_pure _) (.ite (confined_pure _) ?_)
  refine .bind ((waitFrame_confined 6).mono fun _ => Bufferless.noMapping) fun ready => .ite (confined_pure _) ?_
  refine .bind (confined_ask trivial) fun r => ?_
  cases r with
  | error e => exact confined_pure _
  | ok buf =>
    refine .bind confined_get fun p => .ite (confined_pure _) ?_
    refine .bind ((processBuffer_confined plat buf fmt).mono fun _ => Bufferless.noMapping) fun r => ?_
    refine .bind (confined_ask trivial) fun q => ?_
    cases q with
    | error e => exact confined_pure _
    | ok _ => exact confined_pure _

theorem afEnergy_confined (plat : Platform) (buf : Dequeued) : Confined Bufferless setup (afEnergy plat buf) := by
  refine .bind confined_get fun p => .ite ?_ (confined_pure _)
  refine .bind (demosaicFrame_confined plat _) fun _ => .bind confined_get fun p => ?_
  exact .bind (balanceRgb_confined plat _ _ _ _) fun _ => .bind confined_get fun p => confined_pure _

theorem captureForAf_confined (plat : Platform) : Confined NoMapping setup (captureForAf plat) := by
  refine .bind confined_get fun p => .ite (confined_pure _) (.bind (confined_ask trivial) fun r => ?_)
  split
  · refine .bind (confined_ask trivial) fun r => ?_
    cases r with
    | error e => exact confined_pure _
    | ok buf =>
      refine .bind confined_get fun p => .ite (confined_pure _) ?_
      refine .bind ((afEnergy_confined plat buf).mono fun _ => Bufferless.noMapping) fun energy => ?_
      refine .bind (confined_ask trivial) fun q => ?_
      cases q with
      | error e => exact confined_pure _
      | ok _ => exact confined_pure _
  · exact confined_pure _

section

variable (plat : Platform)

theorem focus_confined (pos : Int) : Confined NoMapping setup (setFocus pos) :=
  (setFocus_confined pos).mono fun _ => Bufferless.noMapping

theorem afProbe_confined (best : Int × Int) (pos : Int) : Confined NoMapping setup (afProbe plat best pos) :=
  .bind (focus_confined pos) fun _ => .bind (captureForAf_confined plat) fun _ =>
    .ite (confined_pure _) (confined_pure _)

theorem afSweep_confined (ps : List Int) (best : Int × Int) : Confined NoMapping setup (afSweep plat ps best) := by
  induction ps generalizing best with
  | nil => exact confined_pure _
  | cons pos rest ih => exact .bind (afProbe_confined plat best pos) fun best => ih best

theorem afFine_confined (ps : List Int) (best : Int × Int) :
    Confined NoMapping setup (startAfScan.afFine plat ps best) := by
  induction ps generalizing best with
  | nil => exact confined_pure _
  | cons pos rest ih => exact .ite (ih best) (.bind (afProbe_confined plat best pos) fun best => ih best)

theorem startAfScan_confined : Confined NoMapping setup (startAfScan plat) := by
  refine .bind confined_get fun p => .ite (confined_modify fun _ => rfl) ?_
  refine .bind (confined_modify fun _ => rfl) fun _ => .bind (afSweep_confined plat _ _) fun best => ?_
  refine .bind (afFine_confined plat _ _) fun best => .bind (focus_confined _) fun _ => ?_
  exact confined_modify fun _ => rfl

end

theorem cancelAf_confined : Confined Bufferless setup cancelAf :=
  .bind (setFocus_confined 0) fun _ => confined_modify fun _ => rfl

/-! ## What the buffer loops leave alone -/

def forgetSlots (p : CameraPipeline) : CameraPipeline := { p with mBuffers := fun _ => ⟨none, 0, false⟩ }

theorem unmapSlots_keeps (drop : V4l2Buffer → Bool) (n i : Nat) :
    Keeps forgetSlots (unmapSlots drop n i) := by
  induction n generalizing i with
  | zero => exact keeps_pure _
  | succ n ih =>
    refine .bind keeps_get fun p => .bind (onlyIf_keeps ?_) fun _ => ih (i + 1)
    refine .bind ?_ fun _ => keeps_modify fun _ => rfl
    unfold munmapStart
    split
    · exact .bind (keeps_ask _) fun _ => keeps_pure _
    · exact keeps_pure _

def forgetBuffers (p : CameraPipeline) : CameraPipeline := { forgetSlots p with mBufferCount := 0 }

theorem unmapAll_keeps (i : Nat) : Keeps forgetBuffers (unmapAll i) :=
  .bind ((unmapSlots_keeps _ i 0).map fun p => { p with mBufferCount := 0 }) fun _ =>
    keeps_modify fun _ => rfl

theorem mapBuffers_keeps (n i : Nat) : Keeps forgetBuffers (mapBuffers n i) := by
  induction n generalizing i with
  | zero => exact keeps_pure _
  | succ n ih =>
    refine .bind (keeps_ask _) fun r => ?_
    cases r with
    | error e => exact .bind (unmapAll_keeps i) fun _ => keeps_pure _
    | ok lo =>
      refine .bind (keeps_modify fun _ => rfl) fun _ => .bind (keeps_ask _) fun a => ?_
      cases a with
      | none =>
        exact .bind (keeps_modify fun _ => rfl) fun _ => .bind (unmapAll_keeps i) fun _ => keeps_pure _
      | some a => exact .bind (keeps_modify fun _ => rfl) fun _ => ih (i + 1)

theorem queueBuffers_confined (n i : Nat) : Confined NoMapping setup (queueBuffers n i) := by
  induction n generalizing i with
  | zero => exact confined_pure _
  | succ n ih =>
    refine .bind (confined_ask trivial) fun r => ?_
    cases r with
    | error e => exact confined_pure _
    | ok _ => exact ih (i + 1)

/-! ## Opening and starting -/

def forgetOpen (p : CameraPipeline) : CameraPipeline :=
  { p with mFd := 0, mCameraId := 0, mState := .closed, mFocusPosition := 0 }

theorem openDev_confined (cameraId : Int) : Confined NoMapping forgetOpen (openDev cameraId) := by
  have hclose : Confined NoMapping forgetOpen closeFd :=
    .bind (confined_ask trivial) fun _ => confined_modify fun _ => rfl
  refine .bind confined_get fun p => .ite (confined_pure _) (.bind (confined_modify fun _ => rfl) fun _ => ?_)
  refine .bind (confined_ask trivial) fun fd => ?_
  cases fd with
  | error e => exact .bind (confined_modify fun _ => rfl) fun _ => confined_pure _
  | ok fd =>
    refine .bind (confined_modify fun _ => rfl) fun _ => .bind (confined_ask trivial) fun cap => ?_
    cases cap with
    | error e => exact .bind hclose fun _ => confined_pure _
    | ok cap =>
      obtain ⟨capture, streaming⟩ := cap
      refine .ite (.bind hclose fun _ => confined_pure _) ?_
      refine .bind (onlyIf_confined (confined_modify fun _ => rfl)) fun _ => ?_
      exact .bind (confined_modify fun _ => rfl) fun _ => confined_pure _

/-- `setup` without the state, which starting a stream changes. -/
def forgetStream (p : CameraPipeline) : CameraPipeline :=
  { p.setup with mState := .closed, mStreaming := false }

theorem startStreaming_confined : Confined NoMapping forgetStream startStreaming := by
  have hstream {α : Type} {m : Pipe α} (hm : Confined NoMapping setup m) : Confined NoMapping forgetStream m :=
    hm.map fun p => { p with mState := .closed, mStreaming := false }
  have hctrl {α : Type} {m : Pipe α} (hm : Confined Bufferless setup m) : Confined NoMapping forgetStream m :=
    hstream (hm.mono fun _ => Bufferless.noMapping)
  refine .bind confined_get fun p => .ite (confined_pure _) (.bind confined_get fun p => ?_)
  refine .bind (hstream (queueBuffers_confined _ 0)) fun ret => .ite (confined_pure _) ?_
  refine .bind (confined_ask trivial) fun on => ?_
  cases on with
  | error e => exact confined_pure _
  | ok _ =>
    refine .bind confined_get fun p => .bind (hctrl (setExposure_confined _)) fun _ => ?_
    refine .bind confined_get fun p => .bind (hctrl (setGain_confined _)) fun _ => ?_
    exact .bind (confined_modify fun _ => rfl) fun _ => confined_pure _

theorem finishConfigure_bufferless (plat : Platform) (config : PipelineConfig) :
    Only Bufferless (finishConfigure plat config) := by
  have hlut : Only Bufferless (rebuildGammaLut plat config.gamma) :=
    .bind (only_modify _) fun _ => .bind only_get fun _ => onlyIf_only (only_modify _)
  have hisp : Only Bufferless (initIsp config) := by
    apply Only.bind (.ite (only_pure _) (only_ask trivial))
    intro buf
    apply Only.bind (only_modify _)
    intro _
    apply Only.ite (only_pure _)
    apply Only.bind (only_modify _)
    intro _
    apply Only.ite (only_pure _)
    exact .bind (only_ask trivial) fun _ => .bind (only_modify _) fun _ => only_pure _
  apply Only.ite
  · apply Only.bind hisp
    intro ret
    exact .ite (only_pure _) (.bind hlut fun _ => only_pure _)
  · exact .bind hlut fun _ => only_pure _

end CameraPipeline

end MochaHal.Camera
