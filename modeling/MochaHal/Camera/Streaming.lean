import MochaHal.Lib.Reach
import MochaHal.Camera.PipelineFrame

/-! Runs of the capture pipeline.  A step is a method call together with the
answers the kernel gives during it.  `streaming_buffers_mapped` says that a
streaming pipeline has two to four mapped buffers, in every run in which REQBUFS
grants at most four buffers and `startStreaming` finds some to queue.  The HAL
itself breaks the second condition: `flush` stops the stream and unmaps the
buffers, and the next capture request restarts it
(`flush_restart_without_buffers`). -/

namespace MochaHal.Camera
open MochaHal.Prog MochaHal.Reach MochaHal.Demosaic

/-! ## Steps -/

inductive PipelineCall
  | openDev (cameraId : Int)
  | configure (config : PipelineConfig)
  | startStreaming
  | stopStreaming
  | captureFrame (out : Bool) (format : PixelFormat)
  | captureForAf
  | startAfScan
  | cancelAf
  | getExposure
  | getGain
  | close

namespace CameraPipeline

/-- The method a call names, its result dropped. -/
def exec (plat : Platform) : PipelineCall → Pipe Unit
  | .openDev cameraId => do
    let _ ← openDev cameraId
    return ()
  | .configure config => do
    let _ ← configure plat config
    return ()
  | .startStreaming => do
    let _ ← startStreaming
    return ()
  | .stopStreaming => do
    let _ ← stopStreaming
    return ()
  | .captureFrame out format => do
    let _ ← captureFrame plat out format
    return ()
  | .captureForAf => do
    let _ ← captureForAf plat
    return ()
  | .startAfScan => startAfScan plat
  | .cancelAf => cancelAf
  | .getExposure => do
    let _ ← getExposure
    return ()
  | .getGain => do
    let _ ← getGain
    return ()
  | .close => do
    let _ ← close
    return ()

/-- The pipeline after a call that the kernel answers by `env`. -/
def next (plat : Platform) (p : CameraPipeline) (step : PipelineCall × KernelEnv) : CameraPipeline :=
  (run step.2 0 (exec plat step.1 p)).2

/-- REQBUFS grants no more buffers than `mBuffers` has slots. -/
def GrantsFit (o : KernelOp) (a : o.Ans) : Prop :=
  match o, a with
  | .requestBuffers _ _, .ok count => count ≤ 4
  | _, _ => True

/-- The step stays within the four slots, and a stream is not started without buffers. -/
def StepFits (p : CameraPipeline) (step : PipelineCall × KernelEnv) : Prop :=
  (∀ n o, GrantsFit o (step.2 n o)) ∧
    (step.1 = .startStreaming → p.mState = .opened → p.mBufferCount ≠ 0)

/-- The states of a pipeline whose steps all meet `ok`. -/
def Reached (plat : Platform) (ok : CameraPipeline → PipelineCall × KernelEnv → Prop) :
    CameraPipeline → Prop :=
  Reachable (fun p => ∃ id config lut, p = .new id config lut) (fun p i q => q = next plat p i) ok

/-! ## The invariant -/

structure BufferInv (p : CameraPipeline) : Prop where
  flag : p.mStreaming = true ↔ p.mState = .streaming
  count : p.mBufferCount = 0 ∨ 2 ≤ p.mBufferCount ∧ p.mBufferCount ≤ 4
  mapped : ∀ i : Nat, (i : Int) < p.mBufferCount → (p.mBuffers i).start.isSome
  queued : p.mState = .streaming → p.mBufferCount ≠ 0

theorem bufferInv_new (id : Int) (config : PipelineConfig) (lut : Nat → Byte) :
    BufferInv (.new id config lut) where
  flag := by simp [CameraPipeline.new]
  count := Or.inl rfl
  mapped := fun i hi => absurd hi (by simp [CameraPipeline.new])
  queued := by simp [CameraPipeline.new]

/-- The invariant reads only fields that `setup` keeps. -/
theorem BufferInv.of_setup {p q : CameraPipeline} (h : BufferInv p) (hs : q.setup = p.setup) :
    BufferInv q := by
  have hstate : q.mState = p.mState := congrArg (fun r => r.mState) hs
  have hflag : q.mStreaming = p.mStreaming := congrArg (fun r => r.mStreaming) hs
  have hbuf : q.mBuffers = p.mBuffers := congrArg (fun r => r.mBuffers) hs
  have hcount : q.mBufferCount = p.mBufferCount := congrArg (fun r => r.mBufferCount) hs
  constructor
  · rw [hstate, hflag]
    exact h.flag
  · rw [hcount]
    exact h.count
  · rw [hcount, hbuf]
    exact h.mapped
  · rw [hstate, hcount]
    exact h.queued

/-- No buffers and no stream. -/
theorem bufferInv_idle {p : CameraPipeline} (hs : p.mState ≠ .streaming) (hf : p.mStreaming = false)
    (hc : p.mBufferCount = 0) : BufferInv p where
  flag := by simp [hs, hf]
  count := Or.inl hc
  mapped := fun i hi => absurd hi (by omega)
  queued := fun h => absurd h hs

/-! ## The methods -/

section

variable {ok : (o : KernelOp) → o.Ans → Prop} {plat : Platform} {p : CameraPipeline}

@[simp] theorem post_setBuffer {i : Nat} {f : V4l2Buffer → V4l2Buffer}
    {T : Unit × CameraPipeline → Prop} : Post ok T (setBuffer i f p) ↔
      T ((), { p with mBuffers := Function.update p.mBuffers i (f (p.mBuffers i)) }) := Iff.rfl

/-- A failed mapping loop leaves no buffers; a complete one has mapped every slot. -/
def Mapped (p : CameraPipeline) (n : Nat) (r : Int × CameraPipeline) : Prop :=
  r.2.mState = p.mState ∧ r.2.mStreaming = p.mStreaming ∧
    ((r.2.mBufferCount = 0 ∧ r.1 ≠ 0) ∨
      r.2.mBufferCount = p.mBufferCount ∧ ∀ j < n, (r.2.mBuffers j).start.isSome)

theorem unmapAll_post (i : Nat) : Post ok (fun r => r.2.mState = p.mState ∧
    r.2.mStreaming = p.mStreaming ∧ r.2.mBufferCount = 0) (unmapAll i p) := by
  unfold unmapAll
  rw [post_stateBind]
  refine (unmapSlots_keeps _ i 0).post fun r hr => ?_
  exact ⟨congrArg (fun r => r.mState) hr, congrArg (fun r => r.mStreaming) hr, rfl⟩

theorem mapBuffers_post (n i : Nat) (hi : ∀ j < i, (p.mBuffers j).start.isSome) :
    Post ok (Mapped p (i + n)) (mapBuffers n i p) := by
  induction n generalizing i p with
  | zero => exact ⟨rfl, rfl, Or.inr ⟨rfl, hi⟩⟩
  | succ n ih =>
    unfold mapBuffers
    rw [post_stateBind, post_ask]
    intro r _
    cases r with
    | error e =>
      dsimp only
      rw [post_stateBind]
      refine (unmapAll_post i).mono fun r hr => ⟨hr.1, hr.2.1, Or.inl ⟨hr.2.2, ?_⟩⟩
      have := e.property
      simp only
      omega
    | ok lo =>
      obtain ⟨length, offset⟩ := lo
      dsimp only
      rw [post_stateBind, post_setBuffer, post_stateBind, post_ask]
      intro a _
      cases a with
      | none =>
        dsimp only
        rw [post_stateBind, post_setBuffer, post_stateBind]
        exact (unmapAll_post i).mono fun r hr => ⟨hr.1, hr.2.1, Or.inl ⟨hr.2.2, by simp [ENOMEM]⟩⟩
      | some a =>
        dsimp only
        rw [post_stateBind, post_setBuffer, show i + (n + 1) = i + 1 + n by omega]
        refine (ih (i + 1) fun j hj => ?_).mono fun r hr => hr
        by_cases h : j = i
        · simp [h]
        · simpa [h] using hi j (by omega)

theorem initIsp_keeps (config : PipelineConfig) :
    Keeps (fun p => (p.mState, p.mStreaming, p.mBuffers, p.mBufferCount)) (initIsp config) := by
  refine .bind (.ite (keeps_pure _) (keeps_ask _)) fun buf => .bind (keeps_modify fun _ => rfl) fun _ => ?_
  refine .ite (keeps_pure _) (.bind (keeps_modify fun _ => rfl) fun _ => .ite (keeps_pure _) ?_)
  exact .bind (keeps_ask _) fun rgb => .bind (keeps_modify fun _ => rfl) fun _ => keeps_pure _

theorem finishConfigure_keeps (config : PipelineConfig) :
    Keeps (fun p => (p.mState, p.mStreaming, p.mBuffers, p.mBufferCount))
      (finishConfigure plat config) := by
  have hlut : Keeps (fun p => (p.mState, p.mStreaming, p.mBuffers, p.mBufferCount))
      (rebuildGammaLut plat config.gamma) :=
    .bind (keeps_modify fun _ => rfl) fun _ => .bind keeps_get fun _ =>
      onlyIf_keeps (keeps_modify fun _ => rfl)
  refine .ite (.bind (initIsp_keeps config) fun ret => .ite (keeps_pure _) ?_) ?_
  · exact .bind hlut fun _ => keeps_pure _
  · exact .bind hlut fun _ => keeps_pure _

theorem openDev_post (h : BufferInv p) (cameraId : Int) :
    Post ok (fun r => BufferInv r.2) (openDev cameraId p) := by
  unfold openDev
  rw [post_stateBind, post_get]
  by_cases hc : p.mState ≠ .closed
  · simpa [hc] using h
  · have hclosed : p.mState = .closed := not_not.mp hc
    have hflag : p.mStreaming = false := by
      have := h.flag
      simpa [hclosed] using this
    -- every exit changes `mFd`, `mCameraId`, the focus position and at most `mState`
    have hexit : ∀ q : CameraPipeline, q.mState ≠ .streaming → q.mStreaming = p.mStreaming →
        q.mBufferCount = p.mBufferCount → q.mBuffers = p.mBuffers → BufferInv q := by
      intro q hs hf hn hb
      refine ⟨by simp [hs, hf, hflag], hn ▸ h.count, ?_, fun h' => absurd h' hs⟩
      rw [hn, hb]
      exact h.mapped
    rw [if_neg hc, post_stateBind, post_modify, post_stateBind, post_ask]
    intro fd _
    cases fd with
    | error e => exact hexit _ (by simp [hclosed]) rfl rfl rfl
    | ok fd =>
      dsimp only
      rw [post_stateBind, post_modify, post_stateBind, post_ask]
      intro cap _
      cases cap with
      | error e => exact fun _ _ => hexit _ (by simp [hclosed]) rfl rfl rfl
      | ok cap =>
        obtain ⟨capture, streaming⟩ := cap
        dsimp only
        by_cases hcap : (!capture || !streaming) = true
        · rw [if_pos hcap]
          exact fun _ _ => hexit _ (by simp [hclosed]) rfl rfl rfl
        · rw [if_neg hcap, post_stateBind, onlyIf]
          by_cases hid : cameraId = 0
          · rw [if_pos hid]
            exact hexit _ (by simp) rfl rfl rfl
          · rw [if_neg hid]
            exact hexit _ (by simp) rfl rfl rfl

/-- Two to four granted buffers are all mapped, or none is left. -/
theorem granted_post (hs : p.mState ≠ .streaming) (hflag : p.mStreaming = false)
    (config : PipelineConfig) {count : BitVec 32} (hn : ¬ count < 2) (hreq : count ≤ 4) :
    Post ok (fun r => BufferInv r.2)
      (mapBuffers count.toInt.toNat 0 { p with mConfig := config, mBufferCount := count.toInt }) := by
  have hle : count.toNat ≤ 4 := BitVec.le_def.mp hreq
  have hge : 2 ≤ count.toNat := BitVec.le_def.mp (BitVec.not_lt.mp hn)
  have hint : count.toInt = count.toNat := BitVec.toInt_eq_toNat_of_lt (by omega)
  refine (mapBuffers_post count.toInt.toNat 0 fun j hj => absurd hj (by omega)).mono ?_
  rintro ⟨ret, q⟩ ⟨hst, hfl, hbuf⟩
  dsimp only at hst hfl hbuf ⊢
  rcases hbuf with ⟨h0, -⟩ | ⟨hcount, hmapped⟩
  · exact bufferInv_idle (hst ▸ hs) (hfl.trans hflag) h0
  · have hcount' : q.mBufferCount = count.toNat := by simpa [hint] using hcount
    refine ⟨by simp [hst, hfl, hflag, hs], Or.inr (by omega), fun i hi => ?_, ?_⟩
    · exact hmapped i (by omega)
    · exact fun h' => absurd h' (hst ▸ hs)

theorem configure_post (h : BufferInv p) (config : PipelineConfig) :
    Post GrantsFit (fun r => BufferInv r.2) (configure plat config p) := by
  unfold configure
  rw [post_stateBind, post_get]
  by_cases hs : p.mState = .streaming
  · simpa [hs] using h
  · have hflag : p.mStreaming = false := by
      have := h.flag
      simpa [hs] using this
    have hkept : BufferInv { p with mConfig := config } := ⟨h.flag, h.count, h.mapped, h.queued⟩
    rw [if_neg hs, post_stateBind, post_modify, post_stateBind, post_get]
    by_cases hfd : p.mFd < 0
    · simpa [hfd] using hkept
    · rw [if_neg hfd, post_stateBind, post_ask]
      intro fmt _
      cases fmt with
      | error e => exact hkept
      | ok _ =>
        dsimp only
        rw [post_stateBind, post_ask]
        intro req hreq
        cases req with
        | error e => exact hkept
        | ok count =>
          dsimp only
          by_cases hn : count < 2
          · rw [if_pos hn]
            exact hkept
          · rw [if_neg hn, post_stateBind, post_modify, post_stateBind]
            refine (granted_post hs hflag config hn hreq).mono fun r hr => ?_
            by_cases hret : r.1 ≠ 0
            · simpa [hret] using hr
            · rw [if_neg hret]
              refine (finishConfigure_keeps config).post fun r' hr' => ?_
              simp only [Prod.mk.injEq] at hr'
              obtain ⟨h1, h2, h3, h4⟩ := hr'
              exact ⟨by rw [h1, h2]; exact hr.flag, h4 ▸ hr.count, by rw [h3, h4]; exact hr.mapped,
                by rw [h1, h4]; exact hr.queued⟩

theorem startStreaming_post (h : BufferInv p) (hn : p.mState = .opened → p.mBufferCount ≠ 0) :
    Post ok (fun r => BufferInv r.2) (startStreaming p) := by
  unfold startStreaming
  rw [post_stateBind, post_get]
  by_cases hs : p.mState ≠ .opened
  · simpa [hs] using h
  · have hn := hn (not_not.mp hs)
    rw [if_neg hs, post_stateBind, post_get, post_stateBind]
    refine (queueBuffers_confined _ 0).keeps.post fun r hr => ?_
    by_cases hret : r.1 ≠ 0
    · simpa [hret] using h.of_setup hr
    · rw [if_neg hret, post_stateBind, post_ask]
      intro on _
      cases on with
      | error e => exact h.of_setup hr
      | ok _ =>
        dsimp only
        rw [post_stateBind, post_get, post_stateBind]
        refine (setExposure_confined _).keeps.post fun q hq => ?_
        rw [post_stateBind, post_get, post_stateBind]
        refine (setGain_confined _).keeps.post fun t ht => ?_
        have hsetup : t.2.setup = p.setup := ht.trans (hq.trans hr)
        have hc : t.2.mBufferCount = p.mBufferCount := congrArg (fun r => r.mBufferCount) hsetup
        have hinv := h.of_setup hsetup
        exact ⟨by simp, hinv.count, hinv.mapped, fun _ => hc ▸ hn⟩

theorem stopStreaming_post (h : BufferInv p) :
    Post ok (fun r => BufferInv r.2 ∧ r.2.mStreaming = false) (stopStreaming p) := by
  unfold stopStreaming
  rw [post_stateBind, post_get]
  by_cases hs : p.mStreaming = true
  · simp only [hs, Bool.not_true, Bool.false_eq_true, ↓reduceIte]
    rw [post_stateBind, post_ask]
    intro off _
    rw [post_stateBind, post_get, post_stateBind]
    exact post_true _ fun r => ⟨bufferInv_idle (by simp) rfl rfl, rfl⟩
  · simpa [hs] using h

theorem close_post (h : BufferInv p) : Post ok (fun r => BufferInv r.2) (close p) := by
  unfold close
  rw [post_stateBind]
  refine (stopStreaming_post h).mono fun r hr => ?_
  rw [post_stateBind, post_get, post_stateBind]
  refine (unmapSlots_keeps _ _ 0).post fun q hq => ?_
  have hflag : q.2.mStreaming = r.2.mStreaming := congrArg (fun r => r.mStreaming) hq
  rw [post_stateBind, post_modify, post_stateBind, post_get, post_stateBind]
  -- the rest keeps the count at 0 and the flag down, and closes
  have hrest : Keeps (fun p : CameraPipeline => (p.mStreaming, p.mBufferCount))
      (onlyIf (q.2.mRgbBuffer.isSome = true)
        (modify fun p => { p with mRgbBuffer := none, mRgbBufferSize := 0 } : Pipe Unit)) :=
    onlyIf_keeps (keeps_modify fun _ => rfl)
  refine hrest.post fun t ht => ?_
  rw [post_stateBind, post_get, post_stateBind]
  have hfd : Keeps (fun p => (p.mStreaming, p.mBufferCount)) (onlyIf (0 ≤ t.2.mFd) closeFd) :=
    onlyIf_keeps (.bind (keeps_ask _) fun _ => keeps_modify fun _ => rfl)
  refine hfd.post fun u hu => ?_
  simp only [Prod.mk.injEq] at ht hu
  exact bufferInv_idle (by simp) ((hu.1.trans ht.1).trans (hflag.trans hr.2)) (hu.2.trans ht.2)

/-- One case per method. -/
theorem exec_post (h : BufferInv p) (c : PipelineCall)
    (hn : c = .startStreaming → p.mState = .opened → p.mBufferCount ≠ 0) :
    Post GrantsFit (fun r => BufferInv r.2) (exec plat c p) := by
  cases c with
  | openDev cameraId => exact post_stateBind.mpr (openDev_post h cameraId)
  | configure config => exact post_stateBind.mpr (configure_post h config)
  | startStreaming => exact post_stateBind.mpr (startStreaming_post h (hn rfl))
  | stopStreaming => exact post_stateBind.mpr ((stopStreaming_post h).mono fun _ hr => hr.1)
  | captureFrame out fmt =>
    exact post_stateBind.mpr ((captureFrame_confined plat out fmt).keeps.post fun _ hr => h.of_setup hr)
  | captureForAf =>
    exact post_stateBind.mpr ((captureForAf_confined plat).keeps.post fun _ hr => h.of_setup hr)
  | startAfScan => exact (startAfScan_confined plat).keeps.post fun _ hr => h.of_setup hr
  | cancelAf => exact cancelAf_confined.keeps.post fun _ hr => h.of_setup hr
  | getExposure => exact post_stateBind.mpr (getExposure_confined.keeps.post fun _ hr => h.of_setup hr)
  | getGain => exact post_stateBind.mpr (getGain_confined.keeps.post fun _ hr => h.of_setup hr)
  | close => exact post_stateBind.mpr (close_post h)

theorem next_bufferInv (h : BufferInv p) {step : PipelineCall × KernelEnv} (hok : StepFits p step) :
    BufferInv (next plat p step) :=
  post_run (exec_post h step.1 hok.2) hok.1 0

theorem reached_bufferInv (h : Reached plat StepFits p) : BufferInv p := by
  refine h.invariant ?_ ?_
  · rintro p ⟨id, config, lut, rfl⟩
    exact bufferInv_new id config lut
  · rintro p step q hp hok rfl
    exact next_bufferInv hp hok

end

/-! ## Streaming means usable buffers -/

/-- Two to four buffers, all of them mapped. -/
def UsableBuffers (p : CameraPipeline) : Prop :=
  2 ≤ p.mBufferCount ∧ p.mBufferCount ≤ 4 ∧
    ∀ i : Nat, (i : Int) < p.mBufferCount → (p.mBuffers i).start.isSome

theorem streaming_buffers_mapped (plat : Platform) (p : CameraPipeline)
    (h : Reached plat StepFits p) (hs : p.mState = .streaming) : UsableBuffers p := by
  have hinv := reached_bufferInv h
  rcases hinv.count with h0 | ⟨h2, h4⟩
  · exact absurd h0 (hinv.queued hs)
  · exact ⟨h2, h4, hinv.mapped⟩

/-- The configuration of `configure_streams` for a 2 x 2 stream of camera 0. -/
def smallConfig : PipelineConfig :=
  ⟨2, 2, 0x30314752, 3, 0, 0, false, true, 0, fun _ => 1, point55, true, true, point55, 6⟩

/-- The pipeline after the calls of `configure_streams`. -/
def configured : CameraPipeline :=
  next flatPlatform (next flatPlatform (next flatPlatform (.new 0 smallConfig fun _ => 0)
    (.openDev 0, kernelGrants)) (.configure smallConfig, kernelGrants)) (.startStreaming, kernelGrants)

theorem kernelGrants_fit (n : Nat) (o : KernelOp) : GrantsFit o (kernelGrants n o) := by
  cases o with
  | requestBuffers count memory => exact (by decide : (2 : BitVec 32) ≤ 4)
  | _ => trivial

theorem configured_reached : Reached flatPlatform StepFits configured := by
  refine .next (.next (.next (.start ⟨0, smallConfig, fun _ => 0, rfl⟩) ?_ rfl) ?_ rfl) ?_ rfl
  · exact ⟨kernelGrants_fit, fun h => by cases h⟩
  · exact ⟨kernelGrants_fit, fun h => by cases h⟩
  · exact ⟨kernelGrants_fit, fun _ _ => by decide⟩

theorem streaming_buffers_mapped_configured : UsableBuffers configured :=
  streaming_buffers_mapped flatPlatform configured configured_reached rfl

/-- After `flush` and the auto-restart of the next request the pipeline streams
without a single buffer. -/
theorem flush_restart_without_buffers :
    ¬ ∀ p, Reached flatPlatform (fun _ _ => True) p → p.mState = .streaming → UsableBuffers p := by
  intro h
  have hreach : Reached flatPlatform (fun _ _ => True) (next flatPlatform
      (next flatPlatform configured (.stopStreaming, kernelGrants)) (.startStreaming, kernelGrants)) :=
    .next (.next (.next (.next (.next (.start ⟨0, smallConfig, fun _ => 0, rfl⟩)
      trivial rfl) trivial rfl) trivial rfl) trivial rfl) trivial rfl
  have := (h _ hreach rfl).1
  revert this
  decide

end CameraPipeline

end MochaHal.Camera
