import MochaHal.Lib.Monitor
import MochaHal.Lib.Reach
import MochaHal.Camera.Tracker
import MochaHal.Camera.DeviceFrame

/-! Capture requests and flushes that run at the same time on one tracker.  Every
thread runs the text of `process_capture_request` or `flush`; a step lets one
thread make its next call.  A request follows a protocol (`requestProtocol`): it is
tracked, asks once more whether it was marked, is removed, and only then reports
its result.  `marked_frame_not_ok` says that a frame that was in the tracker when
`markAllAsError` ran never completes with status OK and metadata, in every run in
which no mark falls between a request's last check and its removal and no drain
erases a mark that its request has not seen.  `flush` itself drains right after it
marks, which loses the mark (`drained_mark_is_lost`). -/

namespace MochaHal.Camera
open MochaHal.Prog MochaHal.Monitor MochaHal.Reach

/-! ## The protocol of a request -/

inductive Phase
  | fresh
  | tracked
  | checked (flushed : Bool)
  | gone (flushed : Bool)
  deriving DecidableEq, Repr

/-- A request between its last check and its removal. -/
def Phase.isChecked : Phase → Bool
  | .checked _ => true
  | _ => false

/-- A request that is not in the tracker: not yet, or no more. -/
def Phase.Untracked : Phase → Prop
  | .fresh | .gone _ => True
  | _ => False

/-- `CAMERA3_BUFFER_STATUS_OK` on a buffer, with result metadata. -/
def okWithMetadata (r : CaptureResult) : Bool :=
  r.result.isSome && r.output_buffers.any fun b => b.status = .ok

def Phase.after (φ : Phase) (o : DevOp) (a : o.Ans) : Phase :=
  match o, a, φ with
  | .add _ _, _, _ => .tracked
  | .isError _, flushed, .tracked => .checked flushed
  | .remove _, _, .tracked => .gone true
  | .remove _, _, .checked flushed => .gone flushed
  | _, _, φ => φ

/-- A request talks about its own frame, is tracked once, and reports success only
after it has found itself unmarked and is removed. -/
def requestProtocol (frame : BitVec 32) : Monitor DevOp DevOp.Ans Phase where
  allowed φ o := match o with
    | .isError f => f = frame
    | .add f _ => f = frame ∧ φ = .fresh
    | .remove f => f = frame
    | .processCaptureResult r => r.frame_number = frame ∧ (okWithMetadata r = true → φ = .gone false)
    | .markAllAsError | .drainAll | .count => False
    | _ => True
  after := Phase.after

namespace CameraDevice

section

variable {frame : BitVec 32} {plat : Platform}

theorem Plain.silent {o : DevOp} (h : Plain o) : (requestProtocol frame).Silent o := by
  intro φ
  cases o with
  | isError f => exact absurd h id
  | add f b => exact absurd h id
  | remove f => exact absurd h id
  | markAllAsError => exact absurd h id
  | drainAll => exact absurd h id
  | count => exact absurd h id
  | processCaptureResult r => exact absurd h id
  | _ => exact ⟨trivial, fun _ => rfl⟩

/-- The capture part ends tracked, or by a return after the frame was removed. -/
def CaptureEnds (φ : Phase) (r : CaptureEnd × CameraDevice) : Prop :=
  match r.1 with
  | .exit _ => φ = .gone true
  | .goOn _ => φ = .tracked

theorem abandon_obeys (e : Int) (d : CameraDevice) :
    Obeys (requestProtocol frame) CaptureEnds .tracked (abandon frame e d) :=
  obeys_ask rfl fun _ => rfl

/-- How the branches go on after `captureFrame`. -/
theorem branch_obeys (e : Int) (d : CameraDevice) :
    Obeys (requestProtocol frame) CaptureEnds .tracked
      ((if e = -EAGAIN then abandon frame (-EAGAIN) else return .goOn false) d) :=
  obeys_ite (fun _ => abandon_obeys _ d) fun _ => rfl

theorem captureInto_obeys (ycbcr : Bool) (stream : Stream) (handle : Nat) (d : CameraDevice) :
    Obeys (requestProtocol frame) CaptureEnds .tracked
      (captureInto plat ycbcr frame stream handle d) := by
  refine obeys_ask trivial fun locked => obeys_ite (fun _ => ?_) fun _ => rfl
  refine obeys_skip ((onPipeline_plain _ _).mono fun _ => Plain.silent) fun r d => ?_
  refine obeys_ask trivial fun _ => obeys_ask trivial fun _ => obeys_ite (fun _ => rfl) fun _ => ?_
  exact branch_obeys r.1 d

theorem captureBlob_obeys (stream : Stream) (handle : Nat) (d : CameraDevice) :
    Obeys (requestProtocol frame) CaptureEnds .tracked (captureBlob plat frame stream handle d) := by
  refine obeys_skip (ensureTempRgba_plain.mono fun _ => Plain.silent) fun _ d => ?_
  refine obeys_skip only_get fun d' _ => ?_
  cases d'.temp_rgba with
  | none => exact rfl
  | some m =>
    refine obeys_skip ((onPipeline_plain _ _).mono fun _ => Plain.silent) fun r d => ?_
    refine obeys_skip (only_modify _) fun _ d => obeys_ite (fun _ => ?_) fun _ => branch_obeys r.1 d
    refine obeys_ask trivial fun locked => obeys_ite (fun _ => ?_) fun _ => rfl
    refine obeys_skip ((encodeBlob_plain _ stream).mono fun _ => Plain.silent) fun _ d => ?_
    exact obeys_ask trivial fun _ => rfl

theorem capture_obeys (stream : Stream) (handle : Nat) (d : CameraDevice) :
    Obeys (requestProtocol frame) CaptureEnds .tracked (capture plat frame stream handle d) := by
  refine obeys_skip only_get fun _ d => obeys_ite (fun _ => ?_) fun _ => rfl
  refine obeys_skip (restart_plain.mono fun _ => Plain.silent) fun e d => ?_
  refine obeys_ite (fun _ => abandon_obeys _ d) fun _ => ?_
  refine obeys_ask trivial fun gralloc => obeys_ite (fun _ => ?_) fun _ => rfl
  cases stream.format with
  | blob => exact captureBlob_obeys stream handle d
  | ycbcr420_888 => exact captureInto_obeys true stream handle d
  | _ => exact captureInto_obeys false stream handle d

theorem notify_silent (msg : NotifyMsg) : Only (requestProtocol frame).Silent (notify msg) :=
  .bind only_get fun _ => onlyIf_only
    (.bind (only_ask fun _ => ⟨trivial, fun _ => rfl⟩) fun _ => only_pure _)

/-- The result is OK with metadata only when the last check found no mark. -/
theorem complete_obeys (buf : StreamBuffer) (captured : Bool) (d : CameraDevice) :
    Obeys (requestProtocol frame) (fun φ _ => φ.Untracked) .tracked
      (complete frame buf captured d) := by
  refine obeys_ask trivial fun ts => obeys_ask rfl fun flushed => obeys_ask rfl fun _ => ?_
  refine obeys_skip (onlyIf_only (notify_silent _)) fun _ d => ?_
  refine obeys_skip (onlyIf_only (notify_silent _)) fun _ d => ?_
  have hmd : Only (requestProtocol frame).Silent
      (if (captured && !flushed) = true then resultMetadata frame ts else pure none) :=
    .ite ((resultMetadata_plain frame ts).mono fun _ => Plain.silent) (only_pure _)
  refine obeys_skip hmd fun md d => obeys_ask ⟨rfl, fun hok => ?_⟩ fun _ => trivial
  cases flushed with
  | false => rfl
  | true => simp [okWithMetadata] at hok

theorem serve_obeys (request : CaptureRequest) (buf : StreamBuffer) (d : CameraDevice) :
    Obeys (requestProtocol request.frame_number) (fun φ _ => φ.Untracked) .tracked
      (serve plat request buf d) := by
  refine obeys_skip ((handleAf_plain plat _).mono fun _ => Plain.silent) fun _ d => ?_
  cases buf.buffer with
  | none => exact obeys_ask rfl fun _ => trivial
  | some handle =>
    refine obeys_skip ((waitFence_plain _).mono fun _ => Plain.silent) fun _ d => ?_
    refine obeys_stateBind ((capture_obeys buf.stream handle d).mono fun φ r hr => ?_)
    obtain ⟨e, d⟩ := r
    cases e with
    | exit e =>
      obtain rfl : φ = .gone true := hr
      trivial
    | goOn captured =>
      obtain rfl : φ = .tracked := hr
      exact complete_obeys buf captured d

/-- Whatever happens, a request ends out of the tracker. -/
theorem processCaptureRequest_obeys (plat : Platform) (request : CaptureRequest) (d : CameraDevice) :
    Obeys (requestProtocol request.frame_number) (fun φ _ => φ.Untracked) .fresh
      (processCaptureRequest plat request d) := by
  refine obeys_skip only_get fun d' d => obeys_ite (fun _ => trivial) fun _ => ?_
  cases request.output_buffers with
  | nil => trivial
  | cons buf rest =>
    refine obeys_ask rfl fun marked => obeys_ite (fun _ => ?_) fun _ => ?_
    · exact obeys_ask rfl fun _ => trivial
    · exact obeys_ask ⟨rfl, rfl⟩ fun _ => serve_obeys request buf d

end

end CameraDevice

/-! ## Threads on one tracker -/

inductive Tid
  | request (frame : BitVec 32)
  | flush (i : Nat)
  deriving DecidableEq, Repr

structure Thread where
  phase : Phase
  prog : Prog DevOp DevOp.Ans (Int × CameraDevice)

/-- `marked` records the frames that were in the tracker at some `markAllAsError`,
`results` what was reported to the framework. -/
structure System where
  tracker : InFlightTracker
  threads : Tid → Option Thread
  marked : BitVec 32 → Bool
  results : List CaptureResult

namespace System

def init : System := ⟨[], fun _ => none, fun _ => false, []⟩

/-- The framework uses a frame number once.  A call that does not go to the
tracker is answered by `env`. -/
inductive Label
  | startRequest (request : CaptureRequest) (dev : CameraDevice)
  | startFlush (i : Nat) (dev : CameraDevice)
  | perform (tid : Tid) (env : DeviceEnv)

def start (s : System) (tid : Tid) (prog : Prog DevOp DevOp.Ans (Int × CameraDevice)) :
    Option System :=
  match s.threads tid with
  | some _ => none
  | none => some { s with threads := Function.update s.threads tid (some ⟨.fresh, prog⟩) }

/-- The answer to a call, and the tracker after it. -/
def answer (s : System) (env : DeviceEnv) (o : DevOp) : o.Ans × InFlightTracker :=
  match s.tracker.answer o with
  | some r => r
  | none => (env 0 o, s.tracker)

def markedAfter (s : System) (o : DevOp) : BitVec 32 → Bool :=
  match o with
  | .markAllAsError => fun f => s.marked f || (s.tracker.lookup f).isSome
  | _ => s.marked

def resultsAfter (s : System) (o : DevOp) : List CaptureResult :=
  match o with
  | .processCaptureResult r => s.results ++ [r]
  | _ => s.results

/-- Thread `tid` makes the call `o` and goes on with `k`. -/
def afterCall (s : System) (tid : Tid) (env : DeviceEnv) (φ : Phase) (o : DevOp)
    (k : o.Ans → Prog DevOp DevOp.Ans (Int × CameraDevice)) : System :=
  let r := s.answer env o
  { tracker := r.2
    threads := Function.update s.threads tid (some ⟨φ.after o r.1, k r.1⟩)
    marked := s.markedAfter o
    results := s.resultsAfter o }

def next (plat : Platform) (s : System) : Label → Option System
  | .startRequest request dev =>
    s.start (.request request.frame_number) (CameraDevice.processCaptureRequest plat request dev)
  | .startFlush i dev => s.start (.flush i) (CameraDevice.flush dev)
  | .perform tid env =>
    match s.threads tid with
    | some ⟨φ, .call o k⟩ => some (s.afterCall tid env φ o k)
    | _ => none

/-- The phase of a frame; a frame without a request is `fresh`. -/
def phaseOf (s : System) (f : BitVec 32) : Phase :=
  match s.threads (.request f) with
  | none => .fresh
  | some th => th.phase

/-- No mark reaches a request between its last check and its removal, and no drain
erases a mark that its request has not read. -/
def CallKeepsMarks (s : System) : DevOp → Prop
  | .markAllAsError => ∀ r ∈ s.tracker, (s.phaseOf r.frameNumber).isChecked = false
  | .drainAll => ∀ r ∈ s.tracker, s.phaseOf r.frameNumber = .tracked → r.markedError = false
  | _ => True

instance (s : System) : (o : DevOp) → Decidable (CallKeepsMarks s o)
  | .markAllAsError => inferInstanceAs (Decidable (∀ r ∈ s.tracker, _))
  | .drainAll => inferInstanceAs (Decidable (∀ r ∈ s.tracker, _))
  | .kernel _ | .isError _ | .add _ _ | .remove _ | .count | .notify _ | .processCaptureResult _
  | .pollFence _ | .closeFence _ | .getGralloc | .lock _ _ _ _ | .unlock _ | .clientStore _
  | .malloc _ | .encodeRgba _ _ _ _ _ | .storeTrailer _ _ | .allocateMetadata | .clock
  | .newPipeline => inferInstanceAs (Decidable True)

/-- The call a step makes, if it makes one. -/
def callOf (s : System) : Label → Option DevOp
  | .perform tid _ =>
    match s.threads tid with
    | some ⟨_, .call o _⟩ => some o
    | _ => none
  | _ => none

def NoLostMark (s : System) (l : Label) : Prop := ∀ o ∈ s.callOf l, CallKeepsMarks s o

instance (s : System) (l : Label) : Decidable (NoLostMark s l) :=
  inferInstanceAs (Decidable (∀ o ∈ s.callOf l, _))

def Reached (plat : Platform) (ok : System → Label → Prop) : System → Prop :=
  Reachable (fun s => s = init) (fun s l s' => next plat s l = some s') ok

/-! ## The invariant -/

/-- What the tracker and the marks say about a frame in each phase. -/
def FrameInv (t : InFlightTracker) (marked : BitVec 32 → Bool) (f : BitVec 32) : Phase → Prop
  | .fresh => t.lookup f = none ∧ marked f = false
  | .tracked => marked f = true → t.isError f = true
  | .checked flushed => marked f = true → flushed = true
  | .gone flushed => t.lookup f = none ∧ (marked f = true → flushed = true)

/-- The calls of `flush`. -/
def FlushCall : DevOp → Prop
  | .kernel _ | .markAllAsError | .drainAll => True
  | _ => False

structure Inv (s : System) : Prop where
  requests : ∀ f th, s.threads (.request f) = some th →
    Obeys (requestProtocol f) (fun _ _ => True) th.phase th.prog
  flushes : ∀ i th, s.threads (.flush i) = some th → Asks FlushCall (fun _ _ => True) th.prog
  frames : ∀ f, FrameInv s.tracker s.marked f (s.phaseOf f)
  results : ∀ r ∈ s.results, okWithMetadata r = true → s.phaseOf r.frame_number = .gone false

theorem inv_init : Inv init where
  requests := fun _ _ h => by cases h
  flushes := fun _ _ h => by cases h
  frames := fun _ => ⟨rfl, rfl⟩
  results := fun _ h => by cases h

theorem flush_calls (d : CameraDevice) : Asks FlushCall (fun _ _ => True) (CameraDevice.flush d) := by
  have hflush : Only FlushCall CameraDevice.flush := by
    refine .bind only_get fun d => .bind (onlyIf_only (.bind ?_ fun _ => only_pure _)) fun _ => ?_
    · refine .bind only_get fun d => ?_
      cases d.pipeline with
      | none => exact only_pure _
      | some p =>
        refine .bind (fun d => ?_) fun r => .bind (only_modify _) fun _ => only_pure _
        exact asks_bind (asks_embed (fun _ => trivial) _) (post_true _ fun _ => trivial)
    · exact .bind (only_ask trivial) fun _ => .bind (only_ask trivial) fun _ => only_pure _
  exact hflush d

section

variable {t t' : InFlightTracker} {marked : BitVec 32 → Bool} {f : BitVec 32} {φ : Phase}

theorem isError_congr (h : t'.lookup f = t.lookup f) : t'.isError f = t.isError f := by
  unfold InFlightTracker.isError
  rw [h]

theorem FrameInv.congr (hi : FrameInv t marked f φ) (h : t'.lookup f = t.lookup f) :
    FrameInv t' marked f φ := by
  cases φ with
  | fresh => exact ⟨h.trans hi.1, hi.2⟩
  | tracked => exact fun hm => (isError_congr h).trans (hi hm)
  | checked b => exact hi
  | gone b => exact ⟨h.trans hi.1, hi.2⟩

/-- `markAllAsError`, with no tracked request between its last check and its removal. -/
theorem FrameInv.markAll (hi : FrameInv t marked f φ)
    (hφ : (t.lookup f).isSome → φ.isChecked = false) :
    FrameInv t.markAllAsError (fun f => marked f || (t.lookup f).isSome) f φ := by
  cases φ with
  | fresh => exact ⟨by simp [hi.1], by simp [hi.1, hi.2]⟩
  | tracked =>
    intro hm
    cases hl : t.lookup f with
    | none =>
      have hm' : marked f = true := by simpa [hl] using hm
      have := hi hm'
      simp [InFlightTracker.isError, hl] at this
    | some r => simp [InFlightTracker.isError, hl]
  | checked b =>
    have hnone : (t.lookup f).isSome = false := by
      by_contra hsome
      exact absurd (hφ (Bool.eq_true_of_not_eq_false hsome)) (by simp [Phase.isChecked])
    exact fun hm => hi (by simpa [hnone] using hm)
  | gone b => exact ⟨by simp [hi.1], fun hm => hi.2 (by simpa [hi.1] using hm)⟩

/-- `drainAll`, when every marked request has read its mark. -/
theorem FrameInv.drain (hi : FrameInv t marked f φ)
    (hφ : ∀ r, t.lookup f = some r → φ = .tracked → r.markedError = false) :
    FrameInv [] marked f φ := by
  cases φ with
  | fresh => exact ⟨rfl, hi.2⟩
  | tracked =>
    intro hm
    have herr := hi hm
    cases hl : t.lookup f with
    | none => simp [InFlightTracker.isError, hl] at herr
    | some r => simp [InFlightTracker.isError, hl, hφ r hl rfl] at herr
  | checked b => exact hi
  | gone b => exact ⟨rfl, hi.2⟩

/-- The frame of a request after one of its own calls. -/
theorem FrameInv.own (hi : FrameInv t marked f φ) {o : DevOp} (ho : (requestProtocol f).allowed φ o)
    (a : o.Ans) (ha : ∀ r, t.answer o = some r → r = (a, t')) (ht : t.answer o = none → t' = t) :
    FrameInv t' marked f (φ.after o a) := by
  cases o with
  | isError g =>
    obtain rfl : g = f := ho
    obtain ⟨rfl, rfl⟩ := Prod.mk.inj (ha _ rfl)
    cases φ with
    | fresh => exact hi
    | tracked => exact hi
    | checked b => exact hi
    | gone b => exact hi
  | add g b =>
    obtain ⟨rfl, rfl⟩ := ho
    exact fun hm => absurd hm (by simp [hi.2])
  | remove g =>
    obtain rfl : g = f := ho
    have hnone : t'.lookup g = none := by
      have ht' : (t.remove g).2 = t' := congrArg Prod.snd (ha _ rfl)
      rw [← ht', InFlightTracker.lookup_remove, if_pos rfl]
    cases φ with
    | fresh => exact ⟨hnone, hi.2⟩
    | tracked => exact ⟨hnone, fun _ => rfl⟩
    | checked b => exact ⟨hnone, hi⟩
    | gone b => exact ⟨hnone, hi.2⟩
  | markAllAsError => exact absurd ho id
  | drainAll => exact absurd ho id
  | count => exact absurd ho id
  | _ =>
    obtain rfl := ht rfl
    exact hi

/-- The other frames do not notice. -/
theorem lookup_other {g : BitVec 32} (hg : g ≠ f) {o : DevOp} (ho : (requestProtocol f).allowed φ o)
    {r : o.Ans × InFlightTracker} (hr : t.answer o = some r) : r.2.lookup g = t.lookup g := by
  cases o with
  | isError h =>
    obtain rfl := Option.some.inj hr
    rfl
  | add h b =>
    obtain rfl := Option.some.inj hr
    obtain ⟨rfl, -⟩ := ho
    simp [Ne.symm hg]
  | remove h =>
    obtain rfl := Option.some.inj hr
    obtain rfl : h = f := ho
    simp [Ne.symm hg]
  | markAllAsError => exact absurd ho id
  | drainAll => exact absurd ho id
  | count => exact absurd ho id
  | _ => cases hr

end

/-! ## Steps -/

section

variable {plat : Platform} {s s' : System}

theorem phaseOf_update (tid : Tid) (th : Thread) (f : BitVec 32) (t : InFlightTracker)
    (marked : BitVec 32 → Bool) (results : List CaptureResult) :
    phaseOf ⟨t, Function.update s.threads tid (some th), marked, results⟩ f =
      if tid = .request f then th.phase else s.phaseOf f := by
  unfold phaseOf
  by_cases h : tid = .request f
  · simp [h]
  · simp [h, Function.update_of_ne (Ne.symm h)]

/-- A thread after `tid` has moved is the one that moved or one as before. -/
theorem update_threads {tid tid' : Tid} {th th' : Thread}
    (h : Function.update s.threads tid (some th) tid' = some th') :
    tid' = tid ∧ th = th' ∨ s.threads tid' = some th' := by
  by_cases heq : tid' = tid
  · subst heq
    exact .inl ⟨rfl, by simpa using h⟩
  · exact .inr (by simpa [heq] using h)

/-- A new thread is in its first phase, like the frame it is for. -/
theorem start_inv (hs : Inv s) {tid : Tid} {prog : Prog DevOp DevOp.Ans (Int × CameraDevice)}
    (h : s.start tid prog = some s')
    (hreq : ∀ f, tid = .request f → Obeys (requestProtocol f) (fun _ _ => True) .fresh prog)
    (hfl : ∀ i, tid = .flush i → Asks FlushCall (fun _ _ => True) prog) : Inv s' := by
  unfold start at h
  cases hold : s.threads tid with
  | some th => simp [hold] at h
  | none =>
    rw [hold] at h
    obtain rfl := Option.some.inj h
    have hphase (f : BitVec 32) : phaseOf ⟨s.tracker, Function.update s.threads tid
        (some ⟨.fresh, prog⟩), s.marked, s.results⟩ f = s.phaseOf f := by
      rw [phaseOf_update]
      split
      · next heq => simp [phaseOf, ← heq, hold]
      · rfl
    refine ⟨fun f th hth => ?_, fun i th hth => ?_, fun f => ?_, fun r hr hok => ?_⟩
    · rcases update_threads hth with ⟨rfl, rfl⟩ | hth
      · exact hreq f rfl
      · exact hs.requests f th hth
    · rcases update_threads hth with ⟨rfl, rfl⟩ | hth
      · exact hfl i rfl
      · exact hs.flushes i th hth
    · rw [hphase]
      exact hs.frames f
    · rw [hphase]
      exact hs.results r hr hok

section Request
variable {f : BitVec 32} {φ : Phase} {o : DevOp}
  {k : o.Ans → Prog DevOp DevOp.Ans (Int × CameraDevice)}

/-- A call of a request moves its own frame along the protocol; the others stay. -/
theorem request_frames (hs : Inv s) (hφ : s.phaseOf f = φ) (hallow : (requestProtocol f).allowed φ o)
    (env : DeviceEnv) (g : BitVec 32) :
    FrameInv (s.answer env o).2 s.marked g
      (if Tid.request f = .request g then φ.after o (s.answer env o).1 else s.phaseOf g) := by
  by_cases heq : f = g
  · subst heq
    rw [if_pos rfl]
    have hframe := hφ ▸ hs.frames f
    refine hframe.own hallow _ (fun r hr => ?_) (fun hnone => ?_)
    · simp [answer, hr]
    · simp [answer, hnone]
  · rw [if_neg (fun h => heq (Tid.request.inj h))]
    refine (hs.frames g).congr ?_
    cases hans : s.tracker.answer o with
    | none => simp [answer, hans]
    | some r => simpa [answer, hans] using lookup_other (Ne.symm heq) hallow hans

/-- A frame that has completed with success makes no call that reopens it. -/
theorem gone_after (hallow : (requestProtocol f).allowed (.gone false) o) (a : o.Ans) :
    Phase.after (.gone false) o a = .gone false := by
  cases o with
  | add g b => exact absurd hallow.2 (by simp)
  | _ => rfl

theorem request_results (hs : Inv s) (hφ : s.phaseOf f = φ) (hallow : (requestProtocol f).allowed φ o)
    (a : o.Ans) {r : CaptureResult} (hr : r ∈ s.resultsAfter o) (hok : okWithMetadata r = true) :
    (if Tid.request f = .request r.frame_number then φ.after o a else s.phaseOf r.frame_number) =
      .gone false := by
  have hold (hmem : r ∈ s.results) : (if Tid.request f = .request r.frame_number then φ.after o a
      else s.phaseOf r.frame_number) = .gone false := by
    have hgone := hs.results r hmem hok
    split
    · next heq =>
      rw [← Tid.request.inj heq, hφ] at hgone
      subst hgone
      exact gone_after hallow a
    · exact hgone
  cases o with
  | processCaptureResult r' =>
    rcases List.mem_append.mp hr with hmem | hnew
    · exact hold hmem
    · obtain rfl : r = r' := by simpa using hnew
      rw [if_pos (by rw [hallow.1])]
      exact hallow.2 hok
  | _ => exact hold hr

theorem request_inv (hs : Inv s) (env : DeviceEnv)
    (hth : s.threads (.request f) = some ⟨φ, .call o k⟩) :
    Inv (s.afterCall (.request f) env φ o k) := by
  obtain ⟨hallow, hk⟩ := obeys_step (hs.requests f _ hth) (s.answer env o).1
  have hφ : s.phaseOf f = φ := by simp [phaseOf, hth]
  have hmarked : s.markedAfter o = s.marked := by
    cases o with
    | markAllAsError => exact absurd hallow id
    | _ => rfl
  refine ⟨fun g th hg => ?_, fun i th hi => ?_, fun g => ?_, fun r hr hok => ?_⟩
  · rcases update_threads hg with ⟨heq, rfl⟩ | hg
    · obtain rfl := Tid.request.inj heq
      exact hk
    · exact hs.requests g th hg
  · exact hs.flushes i th (by simpa [afterCall] using hi)
  · unfold afterCall
    rw [phaseOf_update]
    dsimp only
    rw [hmarked]
    exact request_frames hs hφ hallow env g
  · unfold afterCall at hr ⊢
    rw [phaseOf_update]
    exact request_results hs hφ hallow _ hr hok

end Request

/-- A call of a flush. -/
theorem flush_inv (hs : Inv s) {i : Nat} {φ : Phase} {o : DevOp}
    {k : o.Ans → Prog DevOp DevOp.Ans (Int × CameraDevice)} (env : DeviceEnv)
    (hth : s.threads (.flush i) = some ⟨φ, .call o k⟩) (hok : NoLostMark s (.perform (.flush i) env)) :
    Inv (s.afterCall (.flush i) env φ o k) := by
  obtain ⟨hcall, hk⟩ := hs.flushes i _ hth
  have hkeeps : CallKeepsMarks s o := hok o (by simp [callOf, hth])
  have hresults : s.resultsAfter o = s.results := by
    cases o with
    | processCaptureResult r => exact absurd hcall id
    | _ => rfl
  have hframes : ∀ g, FrameInv (s.answer env o).2 (s.markedAfter o) g (s.phaseOf g) := by
    intro g
    cases o with
    | kernel c => exact hs.frames g
    | markAllAsError =>
      refine (hs.frames g).markAll fun hsome => ?_
      obtain ⟨r, hr⟩ := Option.isSome_iff_exists.mp hsome
      obtain ⟨hmem, rfl⟩ := InFlightTracker.mem_of_lookup hr
      exact hkeeps r hmem
    | drainAll =>
      refine (hs.frames g).drain fun r hr => ?_
      obtain ⟨hmem, rfl⟩ := InFlightTracker.mem_of_lookup hr
      exact hkeeps r hmem
    | _ => exact absurd hcall id
  refine ⟨fun g th hg => ?_, fun j th hj => ?_, fun g => ?_, fun r hr hok => ?_⟩
  · exact hs.requests g th (by simpa [afterCall] using hg)
  · rcases update_threads hj with ⟨-, rfl⟩ | hj
    · exact hk _ trivial
    · exact hs.flushes j th hj
  · unfold afterCall
    rw [phaseOf_update, if_neg (by simp)]
    exact hframes g
  · unfold afterCall at hr ⊢
    rw [phaseOf_update, if_neg (by simp)]
    rw [hresults] at hr
    exact hs.results r hr hok

theorem next_inv (hs : Inv s) {l : Label} (hok : NoLostMark s l) (h : next plat s l = some s') :
    Inv s' := by
  cases l with
  | startRequest request dev =>
    refine start_inv hs h (fun f hf => ?_) fun i hi => by cases hi
    obtain rfl := Tid.request.inj hf
    exact (CameraDevice.processCaptureRequest_obeys plat request dev).mono fun _ _ _ => trivial
  | startFlush i dev => exact start_inv hs h (fun f hf => by cases hf) fun _ _ => flush_calls dev
  | perform tid env =>
    unfold next at h
    cases hth : s.threads tid with
    | none => simp [hth] at h
    | some th =>
      obtain ⟨φ, prog⟩ := th
      cases prog with
      | ret a => simp [hth] at h
      | call o k =>
        obtain rfl : s.afterCall tid env φ o k = s' := by simpa [hth] using h
        cases tid with
        | request f => exact request_inv hs env hth
        | flush i => exact flush_inv hs env hth hok

end

/-! ## Marked frames -/

theorem marked_frame_not_ok (plat : Platform) (s : System) (h : Reached plat NoLostMark s)
    (r : CaptureResult) (hr : r ∈ s.results) (hm : s.marked r.frame_number = true) :
    okWithMetadata r = false := by
  have hs : Inv s := by
    refine h.invariant ?_ fun _ _ _ hs hok hn => next_inv hs hok hn
    rintro s rfl
    exact inv_init
  by_contra hok
  have hok : okWithMetadata r = true := by simpa using hok
  have hframe := hs.frames r.frame_number
  rw [hs.results r hr hok] at hframe
  exact absurd (hframe.2 hm) (by decide)

/-- Request 1 on an initialised device without streams. -/
def plainRequest : CaptureRequest := ⟨1, none, [⟨⟨0, .output, 2, 2, .rgba8888, 2⟩, some 0, -1, -1, .ok⟩]⟩

def idleDevice : CameraDevice := { CameraDevice.init 0 with callback_ops := some true, is_initialized := true }

/-- The request is tracked, a flush marks it, the request reads the mark and ends. -/
def markedRun : List Label :=
  [.startRequest plainRequest idleDevice, .perform (.request 1) deviceGrants,
    .perform (.request 1) deviceGrants, .startFlush 0 idleDevice, .perform (.flush 0) deviceGrants,
    .perform (.request 1) deviceGrants, .perform (.request 1) deviceGrants,
    .perform (.request 1) deviceGrants, .perform (.request 1) deviceGrants]

/-- The frames of the results after a run, with their outcome and mark. -/
def outcomes (s : Option System) : List (BitVec 32 × Bool × Bool) :=
  match s with
  | none => []
  | some s => s.results.map fun r => (r.frame_number, okWithMetadata r, s.marked r.frame_number)

/-- A replay with one result gives a reachable state with that result. -/
theorem outcome_of_run (ok : System → Label → Prop) [∀ s l, Decidable (ok s l)] (ls : List Label)
    (row : BitVec 32 × Bool × Bool)
    (h : outcomes (ls.foldlM (fun s l => if ok s l then next flatPlatform s l else none) init) = [row]) :
    ∃ s r, Reached flatPlatform ok s ∧ r ∈ s.results ∧
      (r.frame_number, okWithMetadata r, s.marked r.frame_number) = row := by
  cases hrun : ls.foldlM (fun s l => if ok s l then next flatPlatform s l else none) init with
  | none =>
    rw [hrun] at h
    cases h
  | some s =>
    rw [hrun] at h
    obtain ⟨r, hr, hrow⟩ := List.map_eq_singleton_iff.mp h
    exact ⟨s, r, reachable_foldlM ls (.start rfl) hrun, by simp [hr], hrow⟩

theorem marked_frame_not_ok_run : ∃ s r, Reached flatPlatform NoLostMark s ∧ r ∈ s.results ∧
    s.marked r.frame_number = true ∧ okWithMetadata r = false := by
  obtain ⟨s, r, hreach, hr, hrow⟩ := outcome_of_run NoLostMark markedRun (1, false, true)
    (by decide +kernel)
  have hm : s.marked r.frame_number = true := congrArg (fun p => p.2.2) hrow
  exact ⟨s, r, hreach, hr, hm, marked_frame_not_ok flatPlatform s hreach r hr hm⟩

/-- The device after a configuration of the stream of `plainRequest`. -/
def streamingDevice : CameraDevice :=
  (run deviceGrants 0 (CameraDevice.configureStreams flatPlatform [⟨0, .output, 2, 2, .rgba8888, 2⟩]
    idleDevice)).2

/-- The request captures its frame; before it checks again a whole flush runs. -/
def drainedRun : List Label :=
  [.startRequest plainRequest streamingDevice] ++
    List.replicate 12 (.perform (.request 1) deviceGrants) ++ [.startFlush 0 streamingDevice] ++
    List.replicate 5 (.perform (.flush 0) deviceGrants) ++
    List.replicate 7 (.perform (.request 1) deviceGrants)

theorem drained_mark_is_lost : ¬ ∀ (plat : Platform) (s : System), Reached plat (fun _ _ => True) s →
    ∀ r ∈ s.results, s.marked r.frame_number = true → okWithMetadata r = false := by
  intro h
  obtain ⟨s, r, hreach, hr, hrow⟩ := outcome_of_run (fun _ _ => True) drainedRun
    (1, true, true) (by decide +kernel)
  have hm : s.marked r.frame_number = true := congrArg (fun p => p.2.2) hrow
  have hok : okWithMetadata r = true := congrArg (fun p => p.2.1) hrow
  exact absurd (h flatPlatform s hreach r hr hm) (by simp [hok])

end System

end MochaHal.Camera
