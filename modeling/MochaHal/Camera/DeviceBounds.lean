import MochaHal.Lib.Reach
import MochaHal.Camera.DeviceFrame

/-! What capture requests write into the client's buffers.  The pipeline has the
size of the one stream that `configure_streams` chose; a request writes a picture
of that size, in the format of its own stream, into its own stream's buffer.
`capture_within_capacity` says that this stays inside the buffer when the
`extent` of such a picture is at most the buffer's capacity. -/

namespace MochaHal.Camera
open MochaHal.Prog MochaHal.Reach MochaHal.Demosaic MochaHal.Stores

inductive DeviceCall
  | setCallbacks (notify : Bool)
  | configureStreams (streams : List Stream)
  | processCaptureRequest (request : CaptureRequest)
  | flush

namespace CameraDevice

def exec (plat : Platform) : DeviceCall → Dev Unit
  | .setCallbacks notify => do
    let _ ← setCallbacks notify
    return ()
  | .configureStreams streams => do
    let _ ← configureStreams plat streams
    return ()
  | .processCaptureRequest request => do
    let _ ← processCaptureRequest plat request
    return ()
  | .flush => do
    let _ ← flush
    return ()

def next (plat : Platform) (d : CameraDevice) (step : DeviceCall × DeviceEnv) : CameraDevice :=
  (run step.2 0 (exec plat step.1 d)).2

/-- The states of a device, under any calls and any answers. -/
def Reached (plat : Platform) : CameraDevice → Prop :=
  Reachable (fun d => ∃ id, d = .init id) (fun d i d' => d' = next plat d i) fun _ _ => True

/-- The states from `d` up to the next configuration. -/
def Later (plat : Platform) (d : CameraDevice) : CameraDevice → Prop :=
  Reachable (fun d' => d' = d) (fun d i d' => d' = next plat d i)
    fun _ i => ∀ streams, i.1 ≠ .configureStreams streams

/-! ## Configurations -/

/-- The stream that gives the pipeline its size. -/
def pipelineStream (streams : List Stream) : Option Stream :=
  (scanStreams ⟨none, none, none⟩ streams).1.bind Selection.choice

section

variable {ok : (o : DevOp) → o.Ans → Prop} {plat : Platform} {d : CameraDevice}

theorem sized_of_none (h : d.pipeline = none) : Sized d := by
  intro p hp
  rw [h] at hp
  exact absurd hp (by simp)

theorem discardPipeline_post (p : CameraPipeline) :
    Post ok (fun r => r.2.pipeline = none) (discardPipeline p d) := by
  unfold discardPipeline
  rw [post_stateBind]
  exact post_true _ fun r => rfl

theorem closePrevious_post : Post ok (fun r => r.2.pipeline = none) (closePrevious d) := by
  unfold closePrevious
  rw [post_stateBind]
  exact post_true _ fun r => rfl

/-- The outcome of a configuration on `stream`: the device is `Sized`, and after a
success it has the size of `stream`. -/
def ConfiguredFor (stream : Stream) (e : Int) (d : CameraDevice) : Prop :=
  Sized d ∧ (e = 0 → d.last_config_width = stream.width ∧ d.last_config_height = stream.height)

theorem startPipeline_post (sel : Selection) (stream : Stream) (opened : CameraPipeline) :
    Post ok (fun r => ConfiguredFor stream r.1 r.2) (startPipeline plat sel stream opened d) := by
  unfold startPipeline
  rw [post_stateBind, post_get, post_stateBind]
  refine post_runOn ((CameraPipeline.configure_shape rfl).mono fun set hset => ?_)
  refine post_stateIte (fun hne => ?_) fun h0 => ?_
  · rw [post_stateBind]
    exact (discardPipeline_post set.2).mono fun r hr => ⟨sized_of_none hr, fun h => absurd h hne⟩
  · have hshape := hset (not_not.mp h0)
    rw [post_stateBind]
    refine post_runOn ((CameraPipeline.startStreaming_keeps set.2).mono fun started hstarted => ?_)
    refine post_stateIte (fun hne => ?_) fun _ => ?_
    · rw [post_stateBind]
      exact (discardPipeline_post started.2).mono fun r hr =>
        ⟨sized_of_none hr, fun h => absurd h hne⟩
    · rw [post_stateBind, post_modify]
      refine ⟨fun p hp => ?_, fun _ => ⟨rfl, rfl⟩⟩
      obtain rfl := Option.some.inj hp
      exact hshape.of_ispSetup hstarted

theorem reconfigure_post (sel : Selection) (stream : Stream) (streams : List Stream) :
    Post ok (fun r => ConfiguredFor stream r.1.1 r.2) (reconfigure plat sel stream streams d) := by
  unfold reconfigure
  rw [post_stateBind]
  refine post_true _ fun r => ?_
  rw [post_stateBind]
  refine closePrevious_post.mono fun r hr => ?_
  rw [post_stateBind, post_ask]
  intro garbage _
  rw [post_stateBind, post_get, post_stateBind]
  refine post_runOn (post_true _ fun opened => ?_)
  refine post_stateIte (fun _ => ?_) fun _ => ?_
  · exact ⟨sized_of_none hr, fun h => absurd h (by decide : -ENODEV ≠ 0)⟩
  · rw [post_stateBind]
    exact startPipeline_post sel stream opened.2

theorem configureStreams_post (hd : Sized d) (streams : List Stream) :
    Post ok (fun r => Sized r.2 ∧ ∀ streams', r.1 = some (0, streams') →
      ∃ ps ∈ pipelineStream streams,
        r.2.last_config_width = ps.width ∧ r.2.last_config_height = ps.height)
      (configureStreams plat streams d) := by
  unfold configureStreams
  refine post_stateIte (fun _ => ⟨hd, fun s' h => ?_⟩) fun _ => ?_
  · exact absurd (congrArg Prod.fst (Option.some.inj h)) (by decide : -EINVAL ≠ 0)
  · cases hscan : scanStreams ⟨none, none, none⟩ streams with
    | mk found scanned =>
      cases found with
      | none =>
        refine ⟨hd, fun s' h => ?_⟩
        exact absurd (congrArg Prod.fst (Option.some.inj h)) (by decide : -EINVAL ≠ 0)
      | some sel =>
        dsimp only
        cases hc : sel.choice with
        | none => exact ⟨hd, fun s' h => by cases h⟩
        | some stream =>
          have hps : stream ∈ pipelineStream streams := by
            simp [pipelineStream, hscan, hc]
          dsimp only
          rw [post_stateBind, post_get]
          refine post_stateIte (fun hsame => ?_) fun _ => ?_
          · exact ⟨hd, fun _ _ => ⟨stream, hps, hsame.1, hsame.2.1⟩⟩
          · rw [post_stateBind]
            refine (reconfigure_post sel stream scanned).mono fun r hr => ⟨hr.1, fun s' h => ?_⟩
            exact ⟨stream, hps, hr.2 (congrArg Prod.fst (Option.some.inj h))⟩

end

/-- The outcome of an accepted configuration. -/
theorem configureStreams_run {plat : Platform} {d d' : CameraDevice} (hd : Sized d)
    {streams streams' : List Stream} {env : DeviceEnv}
    (h : run env 0 (configureStreams plat streams d) = (some (0, streams'), d')) :
    Sized d' ∧ ∃ ps ∈ pipelineStream streams,
      d'.last_config_width = ps.width ∧ d'.last_config_height = ps.height := by
  have hpost : Post (fun _ _ => True) _ (configureStreams plat streams d) :=
    configureStreams_post hd streams
  have hrun := @post_run _ _ _ _ _ env _ hpost (fun _ _ => trivial) 0
  rw [h] at hrun
  exact ⟨hrun.1, hrun.2 streams' rfl⟩

theorem next_sized {plat : Platform} {d : CameraDevice} (hd : Sized d)
    (step : DeviceCall × DeviceEnv) : Sized (next plat d step) := by
  suffices hpost : Post (fun _ _ => True) (fun r => Sized r.2) (exec plat step.1 d) from
    post_run hpost (fun _ _ => trivial) 0
  cases step.1 with
  | setCallbacks notify => exact hd
  | configureStreams streams =>
    exact post_stateBind.mpr ((configureStreams_post hd streams).mono fun r hr => hr.1)
  | processCaptureRequest request =>
    exact post_stateBind.mpr ((processCaptureRequest_keeps plat request).post fun _ hr => hd.of_sizing hr)
  | flush => exact post_stateBind.mpr ((keeps_sizing flush_keeps).post fun _ hr => hd.of_sizing hr)

theorem reached_sized {plat : Platform} {d : CameraDevice} (h : Reached plat d) : Sized d := by
  refine h.invariant ?_ ?_
  · rintro d ⟨id, rfl⟩
    exact sized_of_none rfl
  · rintro d step d' hd - rfl
    exact next_sized hd step

/-- Until the next configuration the sizes stay. -/
theorem next_sizing {plat : Platform} (d : CameraDevice) {step : DeviceCall × DeviceEnv}
    (hno : ∀ streams, step.1 ≠ .configureStreams streams) :
    (next plat d step).sizing = d.sizing := by
  suffices hpost : Post (fun _ _ => True) (fun r => r.2.sizing = d.sizing) (exec plat step.1 d) from
    post_run hpost (fun _ _ => trivial) 0
  cases hc : step.1 with
  | setCallbacks notify => exact rfl
  | configureStreams streams => exact absurd hc (hno streams)
  | processCaptureRequest request => exact post_stateBind.mpr (processCaptureRequest_keeps plat request d)
  | flush => exact post_stateBind.mpr (keeps_sizing flush_keeps d)

theorem later_sizing {plat : Platform} {d d' : CameraDevice} (h : Later plat d d') :
    d'.sizing = d.sizing := by
  refine h.invariant (P := fun d' => d'.sizing = d.sizing) ?_ ?_
  · rintro d' rfl
    rfl
  · rintro d₁ step d₂ h₁ hok rfl
    exact (next_sizing d₁ hok).trans h₁

/-! ## The stores of a request -/

/-- What is written from the locked address on stays below `cap`. -/
def StoresWithin (cap : Int) : DevOp → Prop
  | .clientStore stores => Within cap stores
  | _ => True

section

variable {cap : Int} {plat : Platform}

/-- Plain calls store nothing for the client. -/
theorem Plain.stores {o : DevOp} (h : Plain o) : StoresWithin cap o := by
  cases o with
  | clientStore stores => exact absurd h id
  | _ => trivial

theorem abandon_stores (frame : BitVec 32) (e : Int) : Only (StoresWithin cap) (abandon frame e) :=
  .bind (only_ask trivial) fun _ => only_pure _

theorem captureBlob_stores (frame : BitVec 32) (stream : Stream) (handle : Nat) :
    Only (StoresWithin cap) (captureBlob plat frame stream handle) := by
  refine .bind (ensureTempRgba_plain.mono fun _ => Plain.stores) fun _ => .bind only_get fun d => ?_
  cases d.temp_rgba with
  | none => exact only_pure _
  | some m =>
    refine .bind ((onPipeline_plain _ _).mono fun _ => Plain.stores) fun r => ?_
    refine .bind (only_modify _) fun _ => .ite ?_ (.ite (abandon_stores frame _) (only_pure _))
    refine .bind (only_ask trivial) fun locked => .ite (.bind ?_ fun _ => ?_) (only_pure _)
    · exact (encodeBlob_plain _ stream).mono fun _ => Plain.stores
    · exact .bind (only_ask trivial) fun _ => only_pure _

theorem complete_stores (frame : BitVec 32) (buf : StreamBuffer) (captured : Bool) :
    Only (StoresWithin cap) (complete frame buf captured) := by
  have hnotify (msg : NotifyMsg) : Only (StoresWithin cap) (notify msg) :=
    .bind only_get fun _ => onlyIf_only (.bind (only_ask trivial) fun _ => only_pure _)
  refine .bind (only_ask trivial) fun ts => .bind (only_ask trivial) fun fl => ?_
  refine .bind (only_ask trivial) fun _ => .bind (onlyIf_only (hnotify _)) fun _ => ?_
  refine .bind (onlyIf_only (hnotify _)) fun _ => .bind (.ite ?_ (only_pure _)) fun md => ?_
  · exact (resultMetadata_plain frame ts).mono fun _ => Plain.stores
  · exact .bind (only_ask trivial) fun _ => only_pure _

variable {d : CameraDevice} {ok : (o : DevOp) → o.Ans → Prop}

/-- The stores of one frame: `captureFrame_within` at the device's size. -/
theorem captureFrame_stores (hd : Sized d) (format : PixelFormat)
    (hfit : CameraPipeline.extent format d.last_config_width d.last_config_height ≤ cap) :
    Post ok (fun r => Within cap r.1.2)
      (onPipeline (CameraPipeline.captureFrame plat true format) (-EINVAL, id) d) := by
  unfold onPipeline
  rw [post_stateBind, post_get]
  dsimp only
  cases hp : d.pipeline with
  | none => exact within_id
  | some p =>
    dsimp only
    rw [post_stateBind]
    refine post_runOn ?_
    exact (CameraPipeline.captureFrame_within (hd p hp) true).mono fun r hr => hr.mono hfit

theorem captureInto_stores (hd : Sized d) (ycbcr : Bool) (frame : BitVec 32) (stream : Stream)
    (handle : Nat)
    (hfit : CameraPipeline.extent stream.format d.last_config_width d.last_config_height ≤ cap) :
    Asks (StoresWithin cap) (fun _ _ => True) (captureInto plat ycbcr frame stream handle d) := by
  refine asks_stateBind (only_ask trivial d) fun locked _ => asks_stateIte (fun _ => ?_) fun _ => trivial
  · refine asks_stateBind ((onPipeline_plain _ _).mono (fun _ => Plain.stores) d) ?_
    refine (captureFrame_stores hd stream.format hfit).mono fun r hr => ?_
    have hrest : Only (StoresWithin cap) (do
        let _ ← ask (.clientStore r.1.2)
        let _ ← ask (.unlock handle)
        if r.1.1 = 0 then return .goOn true
        else if r.1.1 = -EAGAIN then abandon frame (-EAGAIN)
        else return .goOn false) :=
      .bind (only_ask hr) fun _ => .bind (only_ask trivial) fun _ =>
        .ite (only_pure _) (.ite (abandon_stores frame _) (only_pure _))
    exact hrest r.2

theorem captureFormat_stores (hd : Sized d) (frame : BitVec 32) (stream : Stream) (handle : Nat)
    (hfit : CameraPipeline.extent stream.format d.last_config_width d.last_config_height ≤ cap) :
    Asks (StoresWithin cap) (fun _ _ => True) (captureFormat plat frame stream handle d) := by
  refine asks_stateBind (only_ask trivial d) fun gralloc _ => asks_stateIte (fun _ => ?_) fun _ => trivial
  cases hf : stream.format with
  | blob => exact captureBlob_stores frame stream handle d
  | ycbcr420_888 => exact captureInto_stores hd true frame stream handle hfit
  | _ => exact captureInto_stores hd false frame stream handle hfit

/-- The size survives what comes before the capture. -/
theorem fit_of_sizing {d d' : CameraDevice} {format : PixelFormat} (h : d'.sizing = d.sizing)
    (hfit : CameraPipeline.extent format d.last_config_width d.last_config_height ≤ cap) :
    CameraPipeline.extent format d'.last_config_width d'.last_config_height ≤ cap := by
  simp only [sizing, Prod.mk.injEq] at h
  rw [h.2.1, h.2.2]
  exact hfit

theorem capture_stores (hd : Sized d) (frame : BitVec 32) (stream : Stream) (handle : Nat)
    (hfit : CameraPipeline.extent stream.format d.last_config_width d.last_config_height ≤ cap) :
    Asks (StoresWithin cap) (fun _ _ => True) (capture plat frame stream handle d) := by
  refine asks_stateBind (only_get d) ?_
  rw [post_get]
  refine asks_stateIte (fun _ => ?_) fun _ => trivial
  refine asks_stateBind (restart_plain.mono (fun _ => Plain.stores) d)
    ((keeps_sizing restart_keeps).post fun r hr => ?_)
  refine asks_stateIte (fun _ => abandon_stores frame _ r.2) fun _ => ?_
  exact captureFormat_stores (hd.of_sizing hr) frame stream handle (fit_of_sizing hr hfit)

theorem serve_stores (hd : Sized d) (request : CaptureRequest) (buf : StreamBuffer)
    (hfit : CameraPipeline.extent buf.stream.format d.last_config_width d.last_config_height ≤ cap) :
    Asks (StoresWithin cap) (fun _ _ => True) (serve plat request buf d) := by
  refine asks_stateBind ((handleAf_plain plat _).mono (fun _ => Plain.stores) d)
    ((handleAf_keeps plat _).post fun r hr => ?_)
  cases buf.buffer with
  | none => exact Only.bind (only_ask trivial) (fun _ => only_pure _) r.2
  | some handle =>
    refine asks_stateBind ((waitFence_plain _).mono (fun _ => Plain.stores) r.2)
      ((keeps_sizing (waitFence_keeps _)).post fun q hq => ?_)
    refine asks_stateBind (capture_stores (hd.of_sizing (hq.trans hr)) _ buf.stream handle
      (fit_of_sizing (hq.trans hr) hfit)) (post_true _ fun e => ?_)
    cases e.1 with
    | exit r => exact trivial
    | goOn captured => exact complete_stores _ buf captured e.2

theorem processCaptureRequest_stores (hd : Sized d) {request : CaptureRequest} {buf : StreamBuffer}
    (hbuf : request.output_buffers.head? = some buf)
    (hfit : CameraPipeline.extent buf.stream.format d.last_config_width d.last_config_height ≤ cap) :
    Asks (StoresWithin cap) (fun _ _ => True) (processCaptureRequest plat request d) := by
  refine asks_stateBind (only_get d) ?_
  rw [post_get]
  refine asks_stateIte (fun _ => trivial) fun _ => ?_
  cases hlist : request.output_buffers with
  | nil => trivial
  | cons first rest =>
    have hfirst : first = buf := by simpa [hlist] using hbuf
    subst hfirst
    refine asks_stateBind (only_ask trivial d) fun marked _ => asks_stateIte (fun _ => ?_) fun _ => ?_
    · exact Only.bind (only_ask trivial) (fun _ => only_pure _) d
    · exact asks_stateBind (only_ask trivial d) fun _ _ => serve_stores hd request first hfit

end

/-! ## Requests stay inside their buffers -/

/-- The bytes of a buffer of `stream`, for the formats with a fixed layout. -/
def capacity (stream : Stream) : Int :=
  let sw : Int := stream.width.toNat
  let sh : Int := stream.height.toNat
  match stream.format with
  | .rgba8888 => 4 * sw * sh
  | .ycbcr420_888 | .yv12 => sw * sh + 2 * ((sw + 1) / 2) * ((sh + 1) / 2)
  | _ => 0

/-- A picture of the pipeline stream's size, in the format of `stream`, fits a
buffer of `stream`. -/
def Fits (streams : List Stream) (stream : Stream) : Prop :=
  ∀ ps ∈ pipelineStream streams,
    CameraPipeline.extent stream.format ps.width ps.height ≤ capacity stream

instance (streams : List Stream) (stream : Stream) : Decidable (Fits streams stream) :=
  inferInstanceAs (Decidable (∀ ps ∈ pipelineStream streams, _))

theorem capture_within_capacity (plat : Platform) (d d' d'' : CameraDevice) (hd : Reached plat d)
    (streams streams' : List Stream) (env : DeviceEnv)
    (hconf : run env 0 (configureStreams plat streams d) = (some (0, streams'), d'))
    (hlater : Later plat d' d'') (request : CaptureRequest) (buf : StreamBuffer)
    (hbuf : request.output_buffers.head? = some buf) (hfit : Fits streams buf.stream)
    (env' : DeviceEnv) :
    ∀ c ∈ calls env' 0 (processCaptureRequest plat request d''),
      ∀ stores, c.1 = .clientStore stores → Within (capacity buf.stream) stores := by
  obtain ⟨hsized, ps, hps, hw, hh⟩ := configureStreams_run (reached_sized hd) hconf
  have hs := later_sizing hlater
  have hext : CameraPipeline.extent buf.stream.format d''.last_config_width d''.last_config_height ≤
      capacity buf.stream := by
    refine fit_of_sizing hs ?_
    rw [hw, hh]
    exact hfit ps hps
  intro c hc stores hstores
  have hasks : Asks _ _ (processCaptureRequest plat request d'') :=
    processCaptureRequest_stores (hsized.of_sizing hs) hbuf hext
  have := asks_calls hasks (fun _ _ => trivial) 0 c hc
  rwa [hstores] at this

/-- An initialised device of camera 0. -/
def started : CameraDevice := next flatPlatform (.init 0) (.setCallbacks true, deviceGrants)

theorem started_reached : Reached flatPlatform started :=
  .next (.start ⟨0, rfl⟩) trivial rfl

/-- The device after a configuration of the one output stream `stream`. -/
def configuredFor (stream : Stream) : CameraDevice :=
  (run deviceGrants 0 (configureStreams flatPlatform [stream] started)).2

/-- A request for frame 1 on `stream`. -/
def requestOn (stream : Stream) : CaptureRequest := ⟨1, none, [⟨stream, some 0, -1, -1, .ok⟩]⟩

def rgbaStream : Stream := ⟨0, .output, 2, 2, .rgba8888, 2⟩

theorem capture_within_capacity_rgba :
    capacity rgbaStream = 16 ∧ ∀ c ∈ calls deviceGrants 0 (processCaptureRequest flatPlatform
        (requestOn rgbaStream) (configuredFor rgbaStream)),
      ∀ stores, c.1 = .clientStore stores → Within (capacity rgbaStream) stores :=
  ⟨by decide, capture_within_capacity flatPlatform started _ _ started_reached [rgbaStream]
    [rgbaStream] deviceGrants (Prod.ext (by decide) rfl) (.start rfl) (requestOn rgbaStream) _ rfl
    (by decide) deviceGrants⟩

def yv12Stream : Stream := ⟨0, .output, 2, 2, .yv12, 2⟩

theorem yv12_accepted : run deviceGrants 0 (configureStreams flatPlatform [yv12Stream] started) =
    (some (0, [yv12Stream]), configuredFor yv12Stream) :=
  Prod.ext (by decide) rfl

/-- Byte 6 of the client's memory changes. -/
theorem yv12_changes_byte : (calls deviceGrants 0 (processCaptureRequest flatPlatform
    (requestOn yv12Stream) (configuredFor yv12Stream))).any (fun c => match c.1 with
      | .clientStore stores => stores (fun _ => 1) 6 ≠ 1
      | _ => false) = true := by
  decide +kernel

/-- A 2 x 2 YV12 buffer has 6 bytes; the raw copy of the RGB buffer writes 12. -/
theorem yv12_overruns_buffer :
    ¬ ∀ (plat : Platform) (d d' d'' : CameraDevice) (streams streams' : List Stream)
      (env env' : DeviceEnv) (request : CaptureRequest) (buf : StreamBuffer), Reached plat d →
      run env 0 (configureStreams plat streams d) = (some (0, streams'), d') → Later plat d' d'' →
      request.output_buffers.head? = some buf → buf.stream ∈ streams' →
      buf.stream.stream_type = .output →
      buf.stream.format ∈ [.rgba8888, .ycbcr420_888, .yv12] →
      ∀ c ∈ calls env' 0 (processCaptureRequest plat request d''),
        ∀ stores, c.1 = .clientStore stores → Within (capacity buf.stream) stores := by
  intro h
  have hw := h flatPlatform started (configuredFor yv12Stream) (configuredFor yv12Stream)
    [yv12Stream] [yv12Stream] deviceGrants deviceGrants (requestOn yv12Stream)
    ⟨yv12Stream, some 0, -1, -1, .ok⟩ started_reached yv12_accepted (.start rfl) rfl (by simp) rfl
    (by decide)
  obtain ⟨c, hc, hne⟩ := List.any_eq_true.mp yv12_changes_byte
  have hw := hw c hc
  generalize c.1 = o at hne hw
  cases o with
  | clientStore stores =>
    have := hw stores rfl (fun _ => 1) 6 (Or.inr (by decide))
    exact absurd this (of_decide_eq_true hne)
  | _ => cases hne

end CameraDevice

end MochaHal.Camera
