import MochaHal.Lib.Monitor
import MochaHal.Camera.DeviceFrame

/-! What a capture request reports to the framework.  A request that returns 0 has
reported one result with its first buffer, a request that returns an error has
reported nothing (`processCaptureRequest_reports`).  So every buffer comes back
exactly once, whatever the outcomes of the calls, precisely when the request has
at most one buffer or is refused (`exactlyOnce_iff`). -/

namespace MochaHal.Camera
open MochaHal.Prog MochaHal.Monitor MochaHal.Demosaic

/-! ## Callbacks -/

inductive Callback
  | notify (msg : NotifyMsg)
  | result (r : CaptureResult)
  deriving DecidableEq, Repr

/-- The callback a call makes, if any. -/
def DevOp.callback : DevOp → Option Callback
  | .notify msg => some (.notify msg)
  | .processCaptureResult r => some (.result r)
  | _ => none

def NotifyMsg.frame : NotifyMsg → BitVec 32
  | .shutter f _ => f
  | .errorDevice f => f

def Callback.frame : Callback → BitVec 32
  | .notify msg => msg.frame
  | .result r => r.frame_number

def Callback.result? : Callback → Option CaptureResult
  | .notify _ => none
  | .result r => some r

/-- The callbacks of a run, in order. -/
def callbacks (cs : List ((o : DevOp) × o.Ans)) : List Callback := cs.filterMap fun c => c.1.callback

/-- The monitor that collects the callbacks. -/
def callbackLog : Monitor DevOp DevOp.Ans (List Callback) where
  allowed _ _ := True
  after log o _ := log ++ o.callback.toList

theorem callbackLog_phase (log : List Callback) (cs : List ((o : DevOp) × o.Ans)) :
    callbackLog.phase log cs = log ++ callbacks cs := by
  induction cs generalizing log with
  | nil => simp [phase, callbacks]
  | cons c cs ih =>
    show callbackLog.phase (log ++ c.1.callback.toList) cs = _
    rw [ih, callbacks, callbacks, List.filterMap_cons]
    cases c.1.callback with
    | none => simp
    | some x => simp

namespace CameraDevice

/-- Calls that report nothing. -/
def Quiet (o : DevOp) : Prop := o.callback = none

theorem Quiet.silent {o : DevOp} (h : Quiet o) : callbackLog.Silent o := fun log =>
  ⟨trivial, fun _ => by simp [callbackLog, show o.callback = none from h]⟩

theorem Plain.quiet {o : DevOp} (h : Plain o) : Quiet o := by
  cases o with
  | notify msg => exact absurd h id
  | processCaptureResult r => exact absurd h id
  | _ => rfl

section

variable {plat : Platform} {frame : BitVec 32}

theorem abandon_quiet (e : Int) : Only Quiet (abandon frame e) :=
  .bind (only_ask rfl) fun _ => only_pure _

theorem captureInto_quiet (ycbcr : Bool) (stream : Stream) (handle : Nat) :
    Only Quiet (captureInto plat ycbcr frame stream handle) := by
  refine .bind (only_ask rfl) fun locked => .ite ?_ (only_pure _)
  refine .bind ((onPipeline_plain _ _).mono fun _ => Plain.quiet) fun r => ?_
  refine .bind (only_ask rfl) fun _ => .bind (only_ask rfl) fun _ => .ite (only_pure _) ?_
  exact .ite (abandon_quiet _) (only_pure _)

theorem captureBlob_quiet (stream : Stream) (handle : Nat) :
    Only Quiet (captureBlob plat frame stream handle) := by
  refine .bind (ensureTempRgba_plain.mono fun _ => Plain.quiet) fun _ => .bind only_get fun d => ?_
  cases d.temp_rgba with
  | none => exact only_pure _
  | some m =>
    refine .bind ((onPipeline_plain _ _).mono fun _ => Plain.quiet) fun r => ?_
    refine .bind (only_modify _) fun _ => .ite ?_ (.ite (abandon_quiet _) (only_pure _))
    refine .bind (only_ask rfl) fun locked => .ite (.bind ?_ fun _ => ?_) (only_pure _)
    · exact (encodeBlob_plain _ stream).mono fun _ => Plain.quiet
    · exact .bind (only_ask rfl) fun _ => only_pure _

theorem capture_quiet (stream : Stream) (handle : Nat) :
    Only Quiet (capture plat frame stream handle) := by
  refine .bind only_get fun d => .ite ?_ (only_pure _)
  refine .bind (restart_plain.mono fun _ => Plain.quiet) fun e => .ite (abandon_quiet _) ?_
  refine .bind (only_ask rfl) fun gralloc => .ite ?_ (only_pure _)
  cases stream.format with
  | blob => exact captureBlob_quiet stream handle
  | ycbcr420_888 => exact captureInto_quiet true stream handle
  | _ => exact captureInto_quiet false stream handle

/-! ## Returns from the middle -/

/-- A return from the capture part is an error. -/
def ExitNegative (r : CaptureEnd × CameraDevice) : Prop := ∀ e, r.1 = .exit e → e < 0

variable {ok : (o : DevOp) → o.Ans → Prop} {d : CameraDevice}

theorem goOn_exitNegative (captured : Bool) : ExitNegative (.goOn captured, d) := fun _ h => by cases h

theorem abandon_post {e : Int} (he : e < 0) : Post ok ExitNegative (abandon frame e d) := by
  unfold abandon
  rw [post_stateBind, post_ask]
  rintro a - e' h
  obtain rfl := CaptureEnd.exit.inj h
  exact he

/-- The three ways to go on after `captureFrame`. -/
theorem branch_post (e : Int) : Post ok ExitNegative
    ((if e = -EAGAIN then abandon frame (-EAGAIN) else return .goOn false) d) :=
  post_stateIte (fun _ => abandon_post (by decide)) fun _ => goOn_exitNegative false

theorem captureInto_post (ycbcr : Bool) (stream : Stream) (handle : Nat) :
    Post ok ExitNegative (captureInto plat ycbcr frame stream handle d) := by
  unfold captureInto
  rw [post_stateBind, post_ask]
  refine fun locked _ => post_stateIte (fun _ => ?_) fun _ => goOn_exitNegative false
  rw [post_stateBind]
  refine post_true _ fun r => ?_
  rw [post_stateBind, post_ask]
  intro a _
  rw [post_stateBind, post_ask]
  exact fun a _ => post_stateIte (fun _ => goOn_exitNegative true) fun _ => branch_post _

theorem captureBlob_post (stream : Stream) (handle : Nat) :
    Post ok ExitNegative (captureBlob plat frame stream handle d) := by
  unfold captureBlob
  rw [post_stateBind]
  refine post_true _ fun r => ?_
  rw [post_stateBind, post_get]
  cases r.2.temp_rgba with
  | none => exact goOn_exitNegative false
  | some m =>
    dsimp only
    rw [post_stateBind]
    refine post_true _ fun r => ?_
    rw [post_stateBind, post_modify]
    refine post_stateIte (fun _ => ?_) fun _ => branch_post _
    rw [post_stateBind, post_ask]
    refine fun locked _ => post_stateIte (fun _ => ?_) fun _ => goOn_exitNegative false
    rw [post_stateBind]
    refine post_true _ fun encoded => ?_
    rw [post_stateBind, post_ask]
    exact fun _ _ => goOn_exitNegative _

theorem capture_post (stream : Stream) (handle : Nat) :
    Post ok ExitNegative (capture plat frame stream handle d) := by
  unfold capture
  rw [post_stateBind, post_get]
  refine post_stateIte (fun _ => ?_) fun _ => goOn_exitNegative false
  rw [post_stateBind]
  refine post_true _ fun r => ?_
  refine post_stateIte (fun _ => abandon_post (by decide)) fun _ => ?_
  unfold captureFormat
  rw [post_stateBind, post_ask]
  refine fun gralloc _ => post_stateIte (fun _ => ?_) fun _ => goOn_exitNegative false
  cases stream.format with
  | blob => exact captureBlob_post stream handle
  | ycbcr420_888 => exact captureInto_post true stream handle
  | _ => exact captureInto_post false stream handle

end

/-! ## The report of a request -/

/-- The stream and the buffer that an entry of a request or result stands for. -/
def bufferKey (b : StreamBuffer) : Stream × Option Nat := (b.stream, b.buffer)

/-- One result for `frame`, which returns `buf`. -/
def ReportsOne (frame : BitVec 32) (buf : StreamBuffer) (log : List Callback) : Prop :=
  ∃ r, log.filterMap Callback.result? = [r] ∧ r.frame_number = frame ∧
    r.output_buffers.map bufferKey = [bufferKey buf]

section

variable {plat : Platform} {frame : BitVec 32} {log : List Callback}

theorem notify_obeys (msg : NotifyMsg) (d : CameraDevice) (hlog : log.filterMap Callback.result? = []) :
    Obeys callbackLog (fun log' _ => log'.filterMap Callback.result? = []) log (notify msg d) := by
  refine obeys_skip only_get fun _ d => obeys_ite (fun _ => ?_) fun _ => hlog
  refine obeys_ask trivial fun _ => ?_
  show (log ++ [Callback.notify msg]).filterMap Callback.result? = []
  rw [List.filterMap_append, hlog]
  rfl

theorem onlyIf_notify_obeys (c : Prop) [Decidable c] (msg : NotifyMsg) (d : CameraDevice)
    (hlog : log.filterMap Callback.result? = []) :
    Obeys callbackLog (fun log' _ => log'.filterMap Callback.result? = []) log
      (onlyIf c (notify msg) d) :=
  obeys_ite (fun _ => notify_obeys msg d hlog) fun _ => hlog

theorem complete_obeysLog (buf : StreamBuffer) (captured : Bool) (d : CameraDevice) :
    Obeys callbackLog (fun log r => r.1 = 0 ∧ ReportsOne frame buf log) []
      (complete frame buf captured d) := by
  refine obeys_ask trivial fun ts => obeys_ask trivial fun flushed => obeys_ask trivial fun _ => ?_
  refine obeys_stateBind ((onlyIf_notify_obeys _ _ d rfl).mono fun log r hlog => ?_)
  refine obeys_stateBind ((onlyIf_notify_obeys _ _ r.2 hlog).mono fun log r hlog => ?_)
  have hmd : Only callbackLog.Silent
      (if (captured && !flushed) = true then resultMetadata frame ts else pure none) :=
    .ite ((resultMetadata_plain frame ts).mono fun _ h => h.quiet.silent) (only_pure _)
  refine obeys_skip hmd fun md d => obeys_ask trivial fun _ => ?_
  refine ⟨rfl, ⟨frame, md, [{ buf with
    acquire_fence := -1, release_fence := -1
    status := if captured && !flushed then .ok else .error }], 1⟩, ?_, rfl, rfl⟩
  show (log ++ [Callback.result _]).filterMap Callback.result? = _
  rw [List.filterMap_append, hlog]
  rfl

/-- **Reports.** An error leaves no trace, a success exactly one result with the
first buffer. -/
theorem processCaptureRequest_reports (plat : Platform) (request : CaptureRequest) (d : CameraDevice) :
    Obeys callbackLog (fun log r => (r.1 < 0 ∧ log = []) ∨
      (r.1 = 0 ∧ ∃ buf rest, request.output_buffers = buf :: rest ∧
        ReportsOne request.frame_number buf log)) [] (processCaptureRequest plat request d) := by
  refine obeys_skip only_get fun _ d => obeys_ite (fun _ => ?_) fun _ => ?_
  · exact Or.inl ⟨(by decide : -ENOSYS < 0), rfl⟩
  · cases request.output_buffers with
    | nil => exact Or.inl ⟨(by decide : -EINVAL < 0), rfl⟩
    | cons buf rest =>
      refine obeys_ask trivial fun marked => obeys_ite (fun _ => ?_) fun _ => ?_
      · exact obeys_ask trivial fun _ => Or.inl ⟨(by decide : -EAGAIN < 0), rfl⟩
      · refine obeys_ask trivial fun _ => ?_
        refine obeys_skip ((handleAf_plain plat _).mono fun _ h => h.quiet.silent) fun _ d => ?_
        cases buf.buffer with
        | none => exact obeys_ask trivial fun _ => Or.inl ⟨(by decide : -EINVAL < 0), rfl⟩
        | some handle =>
          refine obeys_skip ((waitFence_plain _).mono fun _ h => h.quiet.silent) fun _ d => ?_
          refine obeys_stateBind (obeys_silent ((capture_quiet _ handle).mono (fun _ h => h.silent) d)
            (capture_post buf.stream handle |>.mono fun r hr => ?_))
          obtain ⟨e, d⟩ := r
          cases e with
          | exit e => exact Or.inl ⟨hr e rfl, rfl⟩
          | goOn captured =>
            exact (complete_obeysLog buf captured d).mono fun log r hr =>
              Or.inr ⟨hr.1, buf, rest, rfl, hr.2⟩

end

/-! ## Exactly once -/

/-- What the framework may rely on after a request: `cs` are the calls that were
made and `ret` is the value returned. -/
def ExactlyOnce (request : CaptureRequest) (cs : List ((o : DevOp) × o.Ans)) (ret : Int) : Prop :=
  (ret = 0 → ∃ r, ((callbacks cs).filterMap Callback.result?).filter
      (fun r => r.frame_number = request.frame_number) = [r] ∧
    (r.output_buffers.map bufferKey).Perm (request.output_buffers.map bufferKey)) ∧
  (ret < 0 → ∀ c ∈ callbacks cs, c.frame ≠ request.frame_number)

/-- The request is refused before anything can be captured. -/
def Refused (d : CameraDevice) (request : CaptureRequest) : Prop :=
  d.is_initialized = false ∨ d.callback_ops = none ∨
    ∃ buf ∈ request.output_buffers.head?, buf.buffer = none

theorem run_reports (plat : Platform) (request : CaptureRequest) (d : CameraDevice) (env : DeviceEnv) :
    let p := processCaptureRequest plat request d
    ((run env 0 p).1 < 0 ∧ callbacks (calls env 0 p) = []) ∨
      ((run env 0 p).1 = 0 ∧ ∃ buf rest, request.output_buffers = buf :: rest ∧
        ReportsOne request.frame_number buf (callbacks (calls env 0 p))) := by
  have h := obeys_run (processCaptureRequest_reports plat request d) env 0
  rw [callbackLog_phase] at h
  exact h

/-! ## Answers with which a request is served -/

/-- Nothing fails that would end the request early; gralloc is absent. -/
def Passes : (o : DevOp) → o.Ans → Prop
  | .kernel (.queueBuf _ _), a => a = .ok ()
  | .kernel .streamOn, a => a = .ok ()
  | .isError _, a => a = false
  | .getGralloc, a => a = false
  | _, _ => True

def noGralloc : DeviceEnv
  | _, .getGralloc => false
  | n, o => deviceGrants n o

theorem noGralloc_passes (n : Nat) (o : DevOp) : Passes o (noGralloc n o) := by
  cases o with
  | kernel k => cases k <;> first | rfl | trivial
  | isError frame => rfl
  | getGralloc => rfl
  | _ => trivial

theorem queueBuffers_zero (n i : Nat) (p : CameraPipeline) :
    Post (fun o a => Passes (.kernel o) a) (fun r => r.1 = 0) (CameraPipeline.queueBuffers n i p) := by
  induction n generalizing i p with
  | zero => exact rfl
  | succ n ih =>
    unfold CameraPipeline.queueBuffers
    rw [post_stateBind]
    refine fun a ha => ?_
    obtain rfl : a = .ok () := ha
    exact ih (i + 1) p

theorem startStreaming_zero {p : CameraPipeline} (hp : p.mState = .opened) :
    Post (fun o a => Passes (.kernel o) a) (fun r => r.1 = 0) (CameraPipeline.startStreaming p) := by
  unfold CameraPipeline.startStreaming
  rw [post_stateBind, post_get]
  refine post_stateIte (fun h => absurd hp h) fun _ => ?_
  rw [post_stateBind, post_get, post_stateBind]
  refine (queueBuffers_zero _ 0 p).mono fun r hr => post_stateIte (fun h => absurd hr h) fun _ => ?_
  rw [post_stateBind]
  refine fun a ha => ?_
  obtain rfl : a = .ok () := ha
  rw [post_ret]
  dsimp only
  rw [post_stateBind, post_get, post_stateBind]
  refine post_true _ fun r => ?_
  rw [post_stateBind, post_get, post_stateBind]
  exact post_true _ fun r => rfl

theorem restart_zero (d : CameraDevice) : Post Passes (fun r => r.1 = 0) (restart d) := by
  unfold restart
  rw [post_stateBind, post_get]
  cases hp : d.pipeline with
  | none => exact rfl
  | some p =>
    refine post_stateIte (fun h => ?_) fun _ => rfl
    unfold onPipeline
    rw [post_stateBind, post_get]
    simp only [hp]
    rw [post_stateBind]
    exact post_runOn_ok ((startStreaming_zero h).mono fun r hr => hr)

theorem capture_goesOn (plat : Platform) (frame : BitVec 32) (stream : Stream) (handle : Nat)
    (d : CameraDevice) :
    Post Passes (fun r => r.1 = .goOn false) (capture plat frame stream handle d) := by
  unfold capture
  rw [post_stateBind, post_get]
  refine post_stateIte (fun _ => ?_) fun _ => rfl
  rw [post_stateBind]
  refine (restart_zero d).mono fun r hr => post_stateIte (fun h => absurd hr h) fun _ => ?_
  unfold captureFormat
  rw [post_stateBind, post_ask]
  rintro a rfl
  exact rfl

theorem complete_zero (frame : BitVec 32) (buf : StreamBuffer) (captured : Bool) (d : CameraDevice) :
    Post Passes (fun r => r.1 = 0) (complete frame buf captured d) := by
  unfold complete
  rw [post_stateBind, post_ask]
  intro ts _
  rw [post_stateBind, post_ask]
  intro flushed _
  rw [post_stateBind, post_ask]
  intro removed _
  rw [post_stateBind]
  refine post_true _ fun r => ?_
  rw [post_stateBind]
  refine post_true _ fun r => ?_
  rw [post_stateBind]
  exact post_true _ fun r _ _ => rfl

theorem serve_zero (plat : Platform) (request : CaptureRequest) (buf : StreamBuffer)
    (hbuf : buf.buffer ≠ none) (d : CameraDevice) :
    Post Passes (fun r => r.1 = 0) (serve plat request buf d) := by
  unfold serve
  rw [post_stateBind]
  refine post_true _ fun r => ?_
  cases h : buf.buffer with
  | none => exact absurd h hbuf
  | some handle =>
    dsimp only
    rw [post_stateBind]
    refine post_true _ fun r => ?_
    rw [post_stateBind]
    refine (capture_goesOn plat _ _ handle r.2).mono fun r hr => ?_
    rw [hr]
    exact complete_zero _ buf false r.2

theorem processCaptureRequest_zero (plat : Platform) {request : CaptureRequest} {d : CameraDevice}
    (hd : ¬ Refused d request) (hn : request.output_buffers ≠ []) :
    Post Passes (fun r => r.1 = 0) (processCaptureRequest plat request d) := by
  unfold processCaptureRequest
  rw [post_stateBind, post_get]
  refine post_stateIte (fun h => absurd ?_ hd) fun _ => ?_
  · exact h.elim Or.inl fun h => Or.inr (Or.inl h)
  · cases hb : request.output_buffers with
    | nil => exact absurd hb hn
    | cons buf rest =>
      dsimp only
      rw [post_stateBind, post_ask]
      rintro marked rfl
      refine post_stateIte (fun h => absurd h Bool.false_ne_true) fun _ => ?_
      rw [post_stateBind, post_ask]
      refine fun _ _ => serve_zero plat request buf (fun h => hd ?_) d
      exact Or.inr (Or.inr ⟨buf, by rw [hb]; rfl, h⟩)

theorem ReportsOne.of_one {request : CaptureRequest} {buf : StreamBuffer} {log : List Callback}
    (h : ReportsOne request.frame_number buf log) :
    ∃ r, (log.filterMap Callback.result?).filter
        (fun r => r.frame_number = request.frame_number) = [r] ∧
      r.output_buffers.map bufferKey = [bufferKey buf] := by
  obtain ⟨r, hr, hframe, hbuf⟩ := h
  refine ⟨r, ?_, hbuf⟩
  rw [hr]
  simp [hframe]

/-- An error is completed by reporting nothing. -/
theorem exactlyOnce_of_negative {plat : Platform} {request : CaptureRequest} {d : CameraDevice}
    {env : DeviceEnv} (hret : (run env 0 (processCaptureRequest plat request d)).1 ≠ 0) :
    ExactlyOnce request (calls env 0 (processCaptureRequest plat request d))
      (run env 0 (processCaptureRequest plat request d)).1 := by
  rcases run_reports plat request d env with ⟨-, hnone⟩ | ⟨hzero, -⟩
  · refine ⟨fun h => absurd h hret, fun _ c hc => ?_⟩
    rw [hnone] at hc
    exact absurd hc List.not_mem_nil
  · exact absurd hzero hret

/-- A success of a request with one buffer returns that buffer. -/
theorem exactlyOnce_of_one {plat : Platform} {request : CaptureRequest} {d : CameraDevice}
    (hlen : request.output_buffers.length ≤ 1) (env : DeviceEnv) :
    ExactlyOnce request (calls env 0 (processCaptureRequest plat request d))
      (run env 0 (processCaptureRequest plat request d)).1 := by
  rcases run_reports plat request d env with ⟨hneg, -⟩ | ⟨hzero, buf, rest, hbuf, hone⟩
  · exact exactlyOnce_of_negative hneg.ne
  · refine ⟨fun _ => ?_, fun h => absurd hzero h.ne⟩
    obtain ⟨r, hr, hkeys⟩ := hone.of_one
    refine ⟨r, hr, ?_⟩
    rw [hbuf, List.length_cons] at hlen
    obtain rfl : rest = [] := List.length_eq_zero_iff.mp (by omega)
    rw [hkeys, hbuf]
    exact List.Perm.refl _

/-- A success leaves out every buffer but the first. -/
theorem one_of_exactlyOnce {plat : Platform} {request : CaptureRequest} {d : CameraDevice}
    {env : DeviceEnv} (hzero : (run env 0 (processCaptureRequest plat request d)).1 = 0)
    (h : ExactlyOnce request (calls env 0 (processCaptureRequest plat request d))
      (run env 0 (processCaptureRequest plat request d)).1) :
    request.output_buffers.length = 1 := by
  rcases run_reports plat request d env with ⟨hneg, -⟩ | ⟨-, buf, rest, hbuf, hone⟩
  · exact absurd hzero hneg.ne
  · obtain ⟨r, hr, hkeys⟩ := hone.of_one
    obtain ⟨r', hr', hperm⟩ := h.1 hzero
    obtain rfl : r = r' := List.singleton_inj.mp (hr.symm.trans hr')
    rw [hkeys] at hperm
    simpa using hperm.length_eq.symm

theorem refused_negative {plat : Platform} {request : CaptureRequest} {d : CameraDevice}
    (h : Refused d request) :
    Post (fun _ _ => True) (fun r => r.1 ≠ 0) (processCaptureRequest plat request d) := by
  unfold processCaptureRequest
  rw [post_stateBind, post_get]
  refine post_stateIte (fun _ => (by decide : -ENOSYS ≠ 0)) fun hinit => ?_
  cases hb : request.output_buffers with
  | nil => exact (by decide : -EINVAL ≠ 0)
  | cons buf rest =>
    have hnull : buf.buffer = none := by
      rcases h with h | h | ⟨buf', hmem, h⟩
      · exact absurd (Or.inl h) hinit
      · exact absurd (Or.inr h) hinit
      · rw [hb, List.head?_cons, Option.mem_some_iff] at hmem
        rwa [hmem]
    dsimp only
    rw [post_stateBind, post_ask]
    refine fun marked _ => post_stateIte (fun _ => ?_) fun _ => ?_
    · rw [post_stateBind, post_ask]
      exact fun _ _ => (by decide : -EAGAIN ≠ 0)
    · rw [post_stateBind, post_ask]
      intro _ _
      unfold serve
      rw [post_stateBind]
      refine post_true _ fun r => ?_
      rw [hnull]
      exact fun _ _ => (by decide : -EINVAL ≠ 0)

/-- **Completion.** Whatever the calls answer, a request is completed exactly once,
if and only if it has at most one buffer or is refused. -/
theorem exactlyOnce_iff (plat : Platform) (request : CaptureRequest) (d : CameraDevice) :
    (∀ env, ExactlyOnce request (calls env 0 (processCaptureRequest plat request d))
      (run env 0 (processCaptureRequest plat request d)).1) ↔
    request.output_buffers.length ≤ 1 ∨ Refused d request := by
  constructor
  · intro hall
    by_contra hnot
    obtain ⟨hlen, hd⟩ := not_or.mp hnot
    have hn : request.output_buffers ≠ [] := fun h => hlen (by rw [h]; exact Nat.zero_le 1)
    have hzero := post_run (processCaptureRequest_zero plat hd hn) noGralloc_passes 0
    exact hlen (one_of_exactlyOnce hzero (hall noGralloc)).le
  · rintro (hlen | href) env
    · exact exactlyOnce_of_one hlen env
    · exact exactlyOnce_of_negative (post_run (refused_negative href) (fun _ _ => trivial) 0)

/-! ## Two buffers -/

def twoStreams : List Stream := [⟨1, .output, 2, 2, .rgba8888, 2⟩, ⟨2, .output, 2, 2, .rgba8888, 2⟩]

/-- A device with callbacks that accepted two output streams. -/
def configuredTwo : CameraDevice :=
  (run deviceGrants 0 (configureStreams flatPlatform twoStreams { init 0 with
    callback_ops := some true, is_initialized := true })).2

/-- A request for a picture on both. -/
def requestTwo : CaptureRequest :=
  ⟨1, none, twoStreams.map fun s => ⟨s, some s.id, -1, -1, .ok⟩⟩

theorem requestTwo_succeeds :
    (run deviceGrants 0 (processCaptureRequest flatPlatform requestTwo configuredTwo)).1 = 0 := by
  decide +kernel

/-- The request succeeds and the second buffer never comes back. -/
theorem second_buffer_lost : ¬ ∀ (plat : Platform) (request : CaptureRequest) (d : CameraDevice)
    (env : DeviceEnv), request.output_buffers ≠ [] →
    ExactlyOnce request (calls env 0 (processCaptureRequest plat request d))
      (run env 0 (processCaptureRequest plat request d)).1 := by
  intro h
  have hone := one_of_exactlyOnce requestTwo_succeeds
    (h flatPlatform requestTwo configuredTwo deviceGrants (by decide))
  exact absurd hone (by decide)

end CameraDevice

end MochaHal.Camera
