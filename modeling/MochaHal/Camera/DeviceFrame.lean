import MochaHal.Camera.CaptureBounds
import MochaHal.Camera.Device

/-! What the parts of `process_capture_request` and `flush` leave alone, and which
calls they make.  The `_keeps` lemmas say that the pipeline keeps the size of the
last configuration and that only the focus handling touches the focus fields; the
`_plain` lemmas say that a part talks neither to the tracker nor to the framework and
stores nothing for the client. -/

namespace MochaHal.Camera
open MochaHal.Prog MochaHal.Demosaic

namespace CameraDevice

/-! ## The pipeline has the size of the last configuration -/

def Sized (d : CameraDevice) : Prop :=
  ∀ p ∈ d.pipeline, p.Shape d.last_config_width d.last_config_height

/-- What `Sized` depends on. -/
def sizing (d : CameraDevice) : Option CameraPipeline × BitVec 32 × BitVec 32 :=
  (d.pipeline.map CameraPipeline.ispSetup, d.last_config_width, d.last_config_height)

/-- The sizes, the focus fields and what a request needs to be served. -/
def settled (d : CameraDevice) : (Option CameraPipeline × BitVec 32 × BitVec 32) ×
    (Byte × Byte × Bool) × (Bool × Option Bool) :=
  (d.sizing, (d.af_mode, d.af_trigger, d.af_trigger_handled), (d.is_initialized, d.callback_ops))

theorem keeps_sizing {α : Type} {m : Dev α} (h : Keeps settled m) : Keeps sizing m :=
  h.map Prod.fst

theorem Sized.of_sizing {d d' : CameraDevice} (hd : Sized d) (h : d'.sizing = d.sizing) : Sized d' := by
  simp only [sizing, Prod.mk.injEq] at h
  obtain ⟨hp, hw, hh⟩ := h
  intro p hmem
  rw [Option.mem_def] at hmem
  rw [hmem, Option.map_some] at hp
  obtain ⟨q, hq, hqs⟩ := Option.map_eq_some_iff.mp hp.symm
  rw [hw, hh]
  exact (hd q hq).of_ispSetup hqs.symm

theorem post_runOn_ok {α : Type} {ok : (o : DevOp) → o.Ans → Prop} {p : CameraPipeline} {m : Pipe α}
    {d : CameraDevice} {T : (α × CameraPipeline) × CameraDevice → Prop}
    (h : Post (fun o a => ok (.kernel o) a) (fun r => T (r, d)) (m p)) : Post ok T (runOn p m d) := by
  unfold runOn
  rw [post_bind]
  exact post_embed (fun _ _ ha => ha) h

theorem post_runOn {α : Type} {ok : (o : DevOp) → o.Ans → Prop} {p : CameraPipeline} {m : Pipe α}
    {d : CameraDevice} {T : (α × CameraPipeline) × CameraDevice → Prop}
    (h : Post (fun _ _ => True) (fun r => T (r, d)) (m p)) : Post ok T (runOn p m d) :=
  post_runOn_ok (h.weaken fun _ _ _ => trivial)

theorem onPipeline_keeps {α : Type} {m : Pipe α} (hm : Keeps CameraPipeline.ispSetup m) (a : α) :
    Keeps settled (onPipeline m a) := by
  intro d
  unfold onPipeline
  rw [post_stateBind, post_get]
  dsimp only
  cases hp : d.pipeline with
  | none => exact rfl
  | some p =>
    dsimp only
    rw [post_stateBind]
    refine post_runOn ((hm p).mono fun r hr => ?_)
    rw [post_stateBind, post_modify]
    simp [settled, sizing, hp, hr]

/-- A pipeline method that keeps what a frame keeps. -/
theorem onPipeline_setup {α : Type} {m : Pipe α} (hm : Keeps CameraPipeline.setup m) (a : α) :
    Keeps settled (onPipeline m a) :=
  onPipeline_keeps (CameraPipeline.keeps_ispSetup hm) a

theorem handleAf_keeps (plat : Platform) (settings : Option Settings) :
    Keeps sizing (handleAf plat settings) := by
  refine .bind (keeps_modify fun d => ?_) fun _ => .bind keeps_get fun d => onlyIf_keeps (.ite ?_ ?_)
  · cases settings with
    | none => rfl
    | some s => rfl
  · exact .bind (keeps_sizing (onPipeline_setup (CameraPipeline.startAfScan_confined plat).keeps _)) fun _ =>
      keeps_modify fun _ => rfl
  · exact onlyIf_keeps (.bind (keeps_sizing (onPipeline_setup CameraPipeline.cancelAf_confined.keeps _)) fun _ =>
      keeps_modify fun _ => rfl)

theorem waitFence_keeps (fence : Int) : Keeps settled (waitFence fence) :=
  onlyIf_keeps (.bind (keeps_ask _) fun _ => .bind (keeps_ask _) fun _ => keeps_pure _)

theorem abandon_keeps (frame : BitVec 32) (e : Int) : Keeps settled (abandon frame e) :=
  .bind (keeps_ask _) fun _ => keeps_pure _

theorem captureInto_keeps (plat : Platform) (ycbcr : Bool) (frame : BitVec 32) (stream : Stream)
    (handle : Nat) : Keeps settled (captureInto plat ycbcr frame stream handle) := by
  refine .bind (keeps_ask _) fun locked => .ite ?_ (keeps_pure _)
  refine .bind (onPipeline_setup (CameraPipeline.captureFrame_confined plat _ _).keeps _) fun r => ?_
  refine .bind (keeps_ask _) fun _ => .bind (keeps_ask _) fun _ => .ite (keeps_pure _) ?_
  exact .ite (abandon_keeps frame _) (keeps_pure _)

theorem encodeBlob_keeps (rgba : Mem) (stream : Stream) : Keeps settled (encodeBlob rgba stream) :=
  .bind keeps_get fun _ => .bind (keeps_ask _) fun _ =>
    .ite (.bind (keeps_ask _) fun _ => keeps_pure _) (keeps_pure _)

theorem captureBlob_keeps (plat : Platform) (frame : BitVec 32) (stream : Stream) (handle : Nat) :
    Keeps settled (captureBlob plat frame stream handle) := by
  refine .bind (.bind keeps_get fun d => onlyIf_keeps ?_) fun _ => .bind keeps_get fun d => ?_
  · exact .bind (keeps_ask _) fun _ => keeps_modify fun _ => rfl
  · cases d.temp_rgba with
    | none => exact keeps_pure _
    | some m =>
      refine .bind (onPipeline_setup (CameraPipeline.captureFrame_confined plat _ _).keeps _) fun r => ?_
      refine .bind (keeps_modify fun _ => rfl) fun _ => .ite ?_ (.ite (abandon_keeps frame _) (keeps_pure _))
      refine .bind (keeps_ask _) fun locked => .ite ?_ (keeps_pure _)
      exact .bind (encodeBlob_keeps _ stream) fun _ => .bind (keeps_ask _) fun _ => keeps_pure _

theorem captureFormat_keeps (plat : Platform) (frame : BitVec 32) (stream : Stream) (handle : Nat) :
    Keeps settled (captureFormat plat frame stream handle) := by
  refine .bind (keeps_ask _) fun gralloc => .ite ?_ (keeps_pure _)
  split
  · exact captureBlob_keeps plat frame stream handle
  · exact captureInto_keeps plat true frame stream handle
  · exact captureInto_keeps plat false frame stream handle

theorem restart_keeps : Keeps settled restart := by
  refine .bind keeps_get fun d => ?_
  split
  · exact .ite (onPipeline_keeps CameraPipeline.startStreaming_keeps _) (keeps_pure _)
  · exact keeps_pure _

theorem capture_keeps (plat : Platform) (frame : BitVec 32) (stream : Stream) (handle : Nat) :
    Keeps settled (capture plat frame stream handle) := by
  refine .bind keeps_get fun d => .ite (.bind restart_keeps fun r => ?_) (keeps_pure _)
  exact .ite (abandon_keeps frame _) (captureFormat_keeps plat frame stream handle)

theorem notify_keeps (msg : NotifyMsg) : Keeps settled (notify msg) :=
  .bind keeps_get fun _ => onlyIf_keeps (.bind (keeps_ask _) fun _ => keeps_pure _)

theorem resultMetadata_keeps (frame : BitVec 32) (ts : Int) : Keeps settled (resultMetadata frame ts) := by
  refine .bind (onPipeline_setup CameraPipeline.getExposure_confined.keeps _) fun _ => ?_
  refine .bind (onPipeline_setup CameraPipeline.getGain_confined.keeps _) fun _ => .bind keeps_get fun d => ?_
  exact .bind (keeps_ask _) fun _ => .ite (keeps_pure _) (keeps_pure _)

theorem complete_keeps (frame : BitVec 32) (buf : StreamBuffer) (captured : Bool) :
    Keeps settled (complete frame buf captured) := by
  refine .bind (keeps_ask _) fun ts => .bind (keeps_ask _) fun fl => .bind (keeps_ask _) fun _ => ?_
  refine .bind (onlyIf_keeps (notify_keeps _)) fun _ => .bind (onlyIf_keeps (notify_keeps _)) fun _ => ?_
  refine .bind (.ite (resultMetadata_keeps frame ts) (keeps_pure _)) fun md => ?_
  exact .bind (keeps_ask _) fun _ => keeps_pure _

/-- What follows the focus handling. -/
def serveRest (plat : Platform) (request : CaptureRequest) (buf : StreamBuffer) : Dev Int :=
  match buf.buffer with
  | none => do
    let _ ← ask (.remove request.frame_number)
    return -EINVAL
  | some handle => do
    waitFence buf.acquire_fence
    match ← capture plat request.frame_number buf.stream handle with
    | .exit code => return code
    | .goOn frameCaptured => complete request.frame_number buf frameCaptured

theorem serve_eq (plat : Platform) (request : CaptureRequest) (buf : StreamBuffer) :
    serve plat request buf = (handleAf plat request.settings >>= fun _ => serveRest plat request buf) := by
  unfold serve serveRest
  cases buf.buffer with
  | none => rfl
  | some handle => rfl

theorem serveRest_keeps (plat : Platform) (request : CaptureRequest) (buf : StreamBuffer) :
    Keeps settled (serveRest plat request buf) := by
  unfold serveRest
  cases buf.buffer with
  | none => exact .bind (keeps_ask _) fun _ => keeps_pure _
  | some handle =>
    refine .bind (waitFence_keeps _) fun _ => .bind (capture_keeps plat _ _ handle) fun e => ?_
    cases e with
    | exit r => exact keeps_pure _
    | goOn captured => exact complete_keeps _ buf captured

theorem serve_keeps (plat : Platform) (request : CaptureRequest) (buf : StreamBuffer) :
    Keeps sizing (serve plat request buf) := by
  rw [serve_eq]
  exact .bind (handleAf_keeps plat _) fun _ => keeps_sizing (serveRest_keeps plat request buf)

theorem processCaptureRequest_keeps (plat : Platform) (request : CaptureRequest) :
    Keeps sizing (processCaptureRequest plat request) := by
  refine .bind keeps_get fun d => .ite (keeps_pure _) ?_
  split
  · exact keeps_pure _
  · refine .bind (keeps_ask _) fun marked => .ite ?_ ?_
    · exact .bind (keeps_ask _) fun _ => keeps_pure _
    · exact .bind (keeps_ask _) fun _ => serve_keeps plat request _

theorem flush_keeps : Keeps settled flush := by
  refine .bind keeps_get fun d => .bind (onlyIf_keeps ?_) fun _ => ?_
  · exact .bind (onPipeline_keeps CameraPipeline.stopStreaming_keeps _) fun _ => keeps_pure _
  · exact .bind (keeps_ask _) fun _ => .bind (keeps_ask _) fun _ => keeps_pure _

/-! ## Calls -/

/-- Calls to the kernel, gralloc, the fences and libraries. -/
def Plain : DevOp → Prop
  | .isError _ | .add _ _ | .remove _ | .markAllAsError | .drainAll | .count => False
  | .notify _ | .processCaptureResult _ | .clientStore _ => False
  | _ => True

theorem runOn_plain {α : Type} (p : CameraPipeline) (m : Pipe α) : Only Plain (runOn p m) :=
  fun _ => asks_bind (asks_embed (fun _ => trivial) (m p)) (post_true _ fun _ => trivial)

theorem onPipeline_plain {α : Type} (m : Pipe α) (a : α) : Only Plain (onPipeline m a) := by
  refine .bind only_get fun d => ?_
  cases d.pipeline with
  | none => exact only_pure _
  | some p => exact .bind (runOn_plain p m) fun r => .bind (only_modify _) fun _ => only_pure _

theorem closePrevious_plain : Only Plain closePrevious :=
  .bind (onPipeline_plain _ _) fun _ => only_modify _

theorem startPipeline_plain (plat : Platform) (sel : Selection) (stream : Stream)
    (opened : CameraPipeline) : Only Plain (startPipeline plat sel stream opened) := by
  have hdiscard (p : CameraPipeline) : Only Plain (discardPipeline p) :=
    .bind (runOn_plain p _) fun _ => only_modify _
  refine .bind only_get fun _ => .bind (runOn_plain _ _) fun set => .ite ?_ ?_
  · exact .bind (hdiscard _) fun _ => only_pure _
  · refine .bind (runOn_plain _ _) fun started => .ite ?_ ?_
    · exact .bind (hdiscard _) fun _ => only_pure _
    · exact .bind (only_modify _) fun _ => only_pure _

theorem handleAf_plain (plat : Platform) (settings : Option Settings) :
    Only Plain (handleAf plat settings) := by
  refine .bind (only_modify _) fun _ => .bind only_get fun d => onlyIf_only (.ite ?_ (onlyIf_only ?_))
  · exact .bind (onPipeline_plain _ _) fun _ => only_modify _
  · exact .bind (onPipeline_plain _ _) fun _ => only_modify _

theorem waitFence_plain (fence : Int) : Only Plain (waitFence fence) :=
  onlyIf_only (.bind (only_ask trivial) fun _ => .bind (only_ask trivial) fun _ => only_pure _)

theorem ensureTempRgba_plain : Only Plain ensureTempRgba :=
  .bind only_get fun _ => onlyIf_only (.bind (only_ask trivial) fun _ => only_modify _)

theorem encodeBlob_plain (rgba : Mem) (stream : Stream) : Only Plain (encodeBlob rgba stream) :=
  .bind only_get fun _ => .bind (only_ask trivial) fun _ =>
    .ite (.bind (only_ask trivial) fun _ => only_pure _) (only_pure _)

theorem restart_plain : Only Plain restart := by
  refine .bind only_get fun d => ?_
  split
  · exact .ite (onPipeline_plain _ _) (only_pure _)
  · exact only_pure _

theorem resultMetadata_plain (frame : BitVec 32) (ts : Int) : Only Plain (resultMetadata frame ts) := by
  refine .bind (onPipeline_plain _ _) fun _ => .bind (onPipeline_plain _ _) fun _ => ?_
  exact .bind only_get fun _ => .bind (only_ask trivial) fun _ => .ite (only_pure _) (only_pure _)

end CameraDevice

end MochaHal.Camera
