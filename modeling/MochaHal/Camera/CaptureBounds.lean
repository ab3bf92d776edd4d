import MochaHal.Camera.PipelineFrame
import MochaHal.Isp.ColorConvBounds

/-! How far `captureFrame` writes.  A pipeline that `configure` set up for a
picture of `w` by `h` keeps that `Shape` through frames, focus scans, stops and
restarts; the stores of a frame then stay below `extent`, which depends on the
output format. -/

namespace MochaHal.Camera
open MochaHal.Prog MochaHal.Demosaic MochaHal.ColorConv MochaHal.Stores

namespace CameraPipeline

/-! ## Shape -/

/-- The pipeline runs its ISP on pictures of `w` by `h`. -/
structure Shape (p : CameraPipeline) (w h : BitVec 32) : Prop where
  width : p.mConfig.width = w
  height : p.mConfig.height = h
  isp : p.mConfig.enableISP = true
  demosaic : p.mDemosaic.isSome = true
  conv : p.mColorConv = some ⟨w.setWidth 16, h.setWidth 16, true⟩
  size : p.mRgbBufferSize = w * h * 3

/-- `setup` without the buffers and the state, which streaming changes. -/
def ispSetup (p : CameraPipeline) : CameraPipeline :=
  { forgetBuffers p.setup with mState := .closed, mStreaming := false }

theorem Shape.of_ispSetup {p q : CameraPipeline} {w h : BitVec 32} (hp : Shape p w h)
    (hs : q.ispSetup = p.ispSetup) : Shape q w h := by
  have hconfig : q.mConfig = p.mConfig := congrArg (fun r => r.mConfig) hs
  have hconv : q.mColorConv = p.mColorConv := congrArg (fun r => r.mColorConv) hs
  have hsize : q.mRgbBufferSize = p.mRgbBufferSize := congrArg (fun r => r.mRgbBufferSize) hs
  have hdem : q.mDemosaic.map forgetBayer = p.mDemosaic.map forgetBayer :=
    congrArg (fun r => r.mDemosaic) hs
  constructor
  · rw [hconfig, hp.width]
  · rw [hconfig, hp.height]
  · rw [hconfig, hp.isp]
  · rw [← Option.isSome_map (f := forgetBayer), hdem, Option.isSome_map, hp.demosaic]
  · rw [hconv, hp.conv]
  · rw [hsize, hp.size]

theorem keeps_ispSetup {α : Type} {m : Pipe α} (hm : Keeps setup m) : Keeps ispSetup m :=
  hm.map fun p => { forgetBuffers p with mState := .closed, mStreaming := false }

theorem startStreaming_keeps : Keeps ispSetup startStreaming :=
  startStreaming_confined.keeps.map forgetBuffers

theorem stopStreaming_keeps : Keeps ispSetup stopStreaming := by
  refine .bind keeps_get fun p => .ite (keeps_pure _) (.bind (keeps_ask _) fun _ => ?_)
  refine .bind keeps_get fun p => .bind ?_ fun _ => .bind (keeps_modify fun _ => rfl) fun _ => keeps_pure _
  exact (unmapSlots_keeps _ _ 0).map fun p =>
    { forgetBuffers p.setup with mState := .closed, mStreaming := false }

/-! ## A successful `configure` -/

section

variable {ok : (o : KernelOp) → o.Ans → Prop} {plat : Platform} {p : CameraPipeline}
  {config : PipelineConfig}

theorem initIsp_shape (hp : p.mConfig = config) (hisp : config.enableISP = true) :
    Post ok (fun r => r.1 = 0 → Shape r.2 config.width config.height) (initIsp config p) := by
  unfold initIsp
  rw [post_stateBind]
  have hk : Keeps (fun p => p.mConfig) (reallocBayer (demosaicParams config)) :=
    .ite (keeps_pure _) (keeps_ask _)
  refine hk.post fun r hr => ?_
  rw [post_stateBind, post_modify]
  refine post_stateIte (fun hd h0 => absurd h0 hd) fun hd => ?_
  dsimp only
  rw [post_stateBind, post_modify]
  refine post_stateIte (fun hc h0 => absurd h0 hc) fun hc => ?_
  have hconv : ( ColorConvNEON.initialize .new (config.width.setWidth 16) (config.height.setWidth 16)).2 =
      ⟨config.width.setWidth 16, config.height.setWidth 16, true⟩ := by
    unfold ColorConvNEON.initialize at hc ⊢
    split at hc
    · exact absurd (by decide : (-1 : Int) ≠ 0) hc
    · next hz => rw [if_neg hz]
  have hconfig : r.2.mConfig = config := hr.trans hp
  rw [post_stateBind, post_ask]
  exact fun rgb _ _ => ⟨by rw [hconfig], by rw [hconfig], by rw [hconfig, hisp], rfl,
    congrArg some hconv, rfl⟩

theorem rebuildGammaLut_keeps (gamma : Rat) :
    Keeps (fun p => (p.mConfig, p.mDemosaic, p.mColorConv, p.mRgbBufferSize)) (rebuildGammaLut plat gamma) :=
  .bind (keeps_modify fun _ => rfl) fun _ => .bind keeps_get fun _ => onlyIf_keeps (keeps_modify fun _ => rfl)

theorem finishConfigure_shape (hp : p.mConfig = config) (hisp : config.enableISP = true) :
    Post ok (fun r => r.1 = 0 → Shape r.2 config.width config.height)
      (finishConfigure plat config p) := by
  unfold finishConfigure
  refine post_stateIte (fun _ => ?_) (fun h => absurd hisp h)
  rw [post_stateBind]
  refine (initIsp_shape hp hisp).mono fun r hr => ?_
  refine post_stateIte (fun hret h0 => absurd h0 hret) fun hret => ?_
  have hs := hr (not_not.mp hret)
  rw [post_stateBind]
  refine (rebuildGammaLut_keeps config.gamma).post fun q hq _ => ?_
  simp only [Prod.mk.injEq] at hq
  obtain ⟨hc, hd, hv, hz⟩ := hq
  exact ⟨by rw [hc, hs.width], by rw [hc, hs.height], by rw [hc, hs.isp], by rw [hd, hs.demosaic],
    by rw [hv, hs.conv], by rw [hz, hs.size]⟩

theorem neg_errno_ne_zero (e : Errno) : (-e.val : Int) ≠ 0 := by
  have := e.property
  omega

theorem configure_shape (hisp : config.enableISP = true) :
    Post ok (fun r => r.1 = 0 → Shape r.2 config.width config.height) (configure plat config p) := by
  unfold configure
  rw [post_stateBind, post_get]
  refine post_stateIte (fun _ h0 => absurd h0 (by decide : -EBUSY ≠ 0)) fun _ => ?_
  rw [post_stateBind, post_modify, post_stateBind, post_get]
  refine post_stateIte (fun _ h0 => absurd h0 (by decide : -ENODEV ≠ 0)) fun _ => ?_
  rw [post_stateBind, post_ask]
  intro fmt _
  cases fmt with
  | error e => exact fun h0 => absurd h0 (neg_errno_ne_zero e)
  | ok _ =>
    dsimp only
    rw [post_stateBind, post_ask]
    intro req _
    cases req with
    | error e => exact fun h0 => absurd h0 (neg_errno_ne_zero e)
    | ok count =>
      refine post_stateIte (fun _ h0 => absurd h0 (by decide : -ENOMEM ≠ 0)) fun _ => ?_
      rw [post_stateBind, post_modify, post_stateBind]
      refine (mapBuffers_keeps _ 0).post fun r hr => ?_
      refine post_stateIte (fun hret h0 => absurd h0 hret) fun _ => ?_
      exact finishConfigure_shape (congrArg (fun r => r.mConfig) hr) hisp

end

/-! ## A frame -/

/-- The offset behind the last byte a frame of `w` by `h` writes in `format`. -/
def extent (format : PixelFormat) (w h : BitVec 32) : Int :=
  let mW : Int := (w.setWidth 16).toNat
  let mH : Int := (h.setWidth 16).toNat
  match format with
  | .rgba8888 | .implementationDefined => 4 * w.toNat * h.toNat
  | .ycbcr420_888 =>
    if mW < 2 then mW * mH else max (mW * mH) ((w * h).toNat + uvEnd mW mH)
  | _ => (w * h * 3).toNat

theorem within_copyOut (src : Mem) (n : Int) : Within n (copyOut src n) := by
  intro m o ho
  simp only [copyOut]
  exact if_neg (by omega)

section

variable {ok : (o : KernelOp) → o.Ans → Prop} {plat : Platform} {p : CameraPipeline}
  {w h : BitVec 32} {format : PixelFormat}

/-- The copy of the formats that are converted nowhere. -/
theorem rawCopy_within (hp : Shape p w h) (r g b : Rat) :
    Post ok (fun r => Within (w * h * 3).toNat r.1.2) ((do
      balanceRgb plat r g b false
      match (← get).mRgbBuffer with
      | some rgb => return (0, copyOut rgb p.mRgbBufferSize.toNat)
      | none => return (0, id) : Pipe (Int × Stores)) p) := by
  rw [post_stateBind]
  refine (balanceRgb_confined plat r g b false).keeps.post fun q _ => ?_
  rw [post_stateBind, post_get, hp.size]
  cases q.2.mRgbBuffer with
  | some rgb => exact within_copyOut rgb _
  | none => exact within_id

theorem processBayerToYuv_within (hp : Shape p w h) (frame : Option Mem) :
    Post ok (fun r => Within (extent format w h) r.1.2) (processBayerToYuv plat frame format p) := by
  unfold processBayerToYuv
  rw [post_stateBind, post_get, post_stateBind, post_get]
  obtain ⟨d, hd⟩ := Option.isSome_iff_exists.mp hp.demosaic
  dsimp only
  rw [hp.conv, hd]
  cases frame with
  | none => exact within_id
  | some data =>
    dsimp only
    rw [post_stateBind]
    refine (keeps_ispSetup (demosaicFrame_keeps plat (some data))).post fun r hr => ?_
    have hs := hp.of_ispSetup hr
    rw [post_stateBind, post_get]
    cases format with
    | rgba8888 =>
      dsimp only
      rw [hs.width, hs.height]
      exact rgbToRgbaWbGamma_within _ w h _ _ _ _ _
    | implementationDefined =>
      dsimp only
      rw [hs.width, hs.height]
      exact rgbToRgbaWbGamma_within _ w h _ _ _ _ _
    | ycbcr420_888 =>
      dsimp only
      rw [post_stateBind]
      refine (balanceRgb_confined plat _ _ _ _).keeps.post fun q _ => ?_
      rw [post_stateBind, post_get, hs.width, hs.height]
      refine rgbToNv12_within _ _ (by omega) ?_ ?_
      · simp only [extent]
        split
        · exact Int.le_refl _
        · exact Int.le_max_left _ _
      · simp only [extent]
        split
        · next h2 => exact Or.inl h2
        · exact Or.inr (Int.le_max_right _ _)
    | blob => exact rawCopy_within hs _ _ _
    | yv12 => exact rawCopy_within hs _ _ _
    | other n => exact rawCopy_within hs _ _ _

theorem captureFrame_within (hp : Shape p w h) (outputBuffer : Bool) :
    Post ok (fun r => Within (extent format w h) r.1.2) (captureFrame plat outputBuffer format p) := by
  unfold captureFrame
  rw [post_stateBind, post_get]
  refine post_stateIte (fun _ => within_id) fun _ => post_stateIte (fun _ => within_id) fun _ => ?_
  rw [post_stateBind]
  refine (keeps_ispSetup (waitFrame_confined 6).keeps).post fun r hr => ?_
  have hs := hp.of_ispSetup hr
  refine post_stateIte (fun _ => within_id) fun _ => ?_
  rw [post_stateBind, post_ask]
  intro dq _
  cases dq with
  | error e => exact within_id
  | ok buf =>
    dsimp only
    rw [post_stateBind, post_get]
    refine post_stateIte (fun _ => within_id) fun _ => ?_
    have hframe : Post ok (fun r => Within (extent format w h) r.1.2)
        (processBuffer plat buf format r.2) := by
      unfold processBuffer
      rw [post_stateBind, post_get]
      refine post_stateIte (fun _ => processBayerToYuv_within hs _) fun hno => ?_
      exact absurd ⟨hs.isp, hs.demosaic, by rw [hs.conv]; rfl⟩ hno
    rw [post_stateBind]
    refine hframe.mono fun q hq => ?_
    rw [post_stateBind, post_ask]
    intro qb _
    cases qb with
    | error e => exact hq
    | ok _ => exact hq

end

end CameraPipeline

end MochaHal.Camera
