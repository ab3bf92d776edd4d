import MochaHal.Camera.Pipeline
import MochaHal.Isp.ColorConvExact

/-! The two white balance implementations.  The RGBA path quantises the gain to Q8
and rounds the product, the YUV path truncates the product with the exact gain.
`wb_difference` bounds the difference for one byte, `preGamma_difference` carries
it over the two pictures that `processBayerToYuv` applies the gamma table to. -/

namespace MochaHal.Camera
open MochaHal.Loop MochaHal.Neon MochaHal.Demosaic MochaHal.ColorConv MochaHal.Stores

/-! ## One byte -/

theorem q8_of_nonneg {g : Rat} (h : 0 ≤ g) : q8 g = ⌊256 * g + 1 / 2⌋ := by
  rw [q8, truncate_of_nonneg (by positivity), mul_comm]

/-- Rounding with the quantised gain is at most one above truncating with the
exact one: the quantisation error of the product stays below one half. -/
theorem wb_unclamped {g : Rat} {p : Nat} (hp : p ≤ 255) :
    ⌊(p : Rat) * g⌋ ≤ ((p : Int) * ⌊256 * g + 1 / 2⌋ + 128) / 256 ∧
    ((p : Int) * ⌊256 * g + 1 / 2⌋ + 128) / 256 ≤ ⌊(p : Rat) * g⌋ + 1 := by
  have hlo := Int.lt_floor_add_one (256 * g + 1 / 2)
  have hhi := Int.floor_le (256 * g + 1 / 2)
  have hflo := Int.floor_le ((p : Rat) * g)
  have hfhi := Int.lt_floor_add_one ((p : Rat) * g)
  have hp' : (p : Rat) ≤ 255 := by exact_mod_cast hp
  have hp0 : (0 : Rat) ≤ p := by positivity
  generalize ⌊256 * g + 1 / 2⌋ = G at *
  generalize ⌊(p : Rat) * g⌋ = f at *
  constructor
  · have : (f : Rat) * 256 < p * G + 129 := by nlinarith
    have : f * 256 < (p : Int) * G + 129 := by exact_mod_cast this
    omega
  · have : (p : Rat) * G + 128 < (f + 2) * 256 := by nlinarith
    have : (p : Int) * G + 128 < (f + 2) * 256 := by exact_mod_cast this
    omega

theorem gainByte_toNat {g : Rat} (h : 0 ≤ g) (v : Byte) :
    ((gainByte g v).toNat : Int) = min 255 ⌊(v.toNat : Rat) * g⌋ := by
  have hpos : (0 : Rat) ≤ v.toNat * g := by positivity
  have hfloor : 0 ≤ ⌊(v.toNat : Rat) * g⌋ := Int.floor_nonneg.mpr hpos
  simp only [gainByte, truncate_of_nonneg hpos]
  split
  · have h255 : (255 : Byte).toNat = 255 := rfl
    omega
  · rw [toNat_ofInt_byte hfloor (by omega)]
    omega

theorem wbValue_bounds {gain : Int} (h : 0 ≤ gain) (v : Byte) :
    0 ≤ wbValue gain v ∧ wbValue gain v ≤ 255 := by
  have : 0 ≤ (v.toNat : Int) * gain := by positivity
  simp only [wbValue, Int.shiftRight_eq_div_pow]
  omega

theorem wb_difference {g : Rat} (h : 0 ≤ g) (v : Byte) :
    0 ≤ wbValue (q8 g) v - (gainByte g v).toNat ∧ wbValue (q8 g) v - (gainByte g v).toNat ≤ 1 := by
  have hv : v.toNat ≤ 255 := by
    have := v.isLt
    omega
  have hun := @wb_unclamped g v.toNat hv
  rw [gainByte_toNat h, wbValue, q8_of_nonneg h, Int.shiftRight_eq_div_pow]
  omega

/-! ## One frame -/

/-- The gain of the component at offset `k` of an RGB picture. -/
def componentGain (gains : Rat × Rat × Rat) (k : Int) : Rat :=
  if k % 3 = 0 then gains.1 else if k % 3 = 1 then gains.2.1 else gains.2.2

theorem gainPixel_updates (gains : Rat × Rat × Rat) (i : Int) :
    Updates (i * 3) ((i + 1) * 3) (fun k v => gainByte (componentGain gains k) v)
      (gainPixel gains.1 gains.2.1 gains.2.2 i) := by
  intro m o
  simp only [gainPixel, storeRgb, store, componentGain]
  grind

theorem applyGain_updates (gains : Rat × Rat × Rat) {total : Int} (h : 0 ≤ total) :
    Updates 0 (total * 3) (fun k v => gainByte (componentGain gains k) v)
      (applyGain gains.1 gains.2.1 gains.2.2 total) := by
  refine (updates_forLoop (fun i => i * 3) (by decide) (by intros; omega) h (by simp)
    (fun _ _ => Iff.rfl) (fun i _ _ _ => gainPixel_updates gains i) (by omega)).reindex rfl rfl

namespace CameraPipeline

/-- The gains a frame is processed with. -/
def frameGains (p : CameraPipeline) : Rat × Rat × Rat :=
  (p.wbOf wbR * p.mConfig.digitalGain, p.wbOf wbG * p.mConfig.digitalGain,
   p.wbOf wbB * p.mConfig.digitalGain)

/-- The picture that the YUV path applies the gamma curve to. -/
def yuvPreGamma (p : CameraPipeline) (rgb : Mem) : Mem :=
  let g := p.frameGains
  if g.1 ≠ 1 ∨ g.2.1 ≠ 1 ∨ g.2.2 ≠ 1 then applyGain g.1 g.2.1 g.2.2 p.pixelTotal rgb else rgb

/-- The picture that the RGBA path looks up in the gamma table. -/
def rgbaPreGamma (p : CameraPipeline) (rgb : Mem) : Mem := fun k =>
  BitVec.ofInt 8 (wbValue (q8 (componentGain p.frameGains k)) (rgb k))

/-- Gains that are not negative and fit the sixteen bits of the vector code. -/
def GainsFit (gains : Rat × Rat × Rat) : Prop :=
  ∀ g ∈ [gains.1, gains.2.1, gains.2.2], 0 ≤ g ∧ ⌊256 * g + 1 / 2⌋ ≤ 65535

theorem componentGain_mem (gains : Rat × Rat × Rat) (k : Int) :
    componentGain gains k ∈ [gains.1, gains.2.1, gains.2.2] := by
  simp only [componentGain]
  split
  · simp
  · split <;> simp

theorem GainsFit.q8Gains {r g b : Rat} (h : GainsFit (r, g, b)) : Q8Gains (q8 r, q8 g, q8 b) := by
  have hfit (x : Rat) (hx : x ∈ [r, g, b]) : 0 ≤ q8 x ∧ q8 x ≤ 65535 := by
    obtain ⟨h0, h1⟩ := h x hx
    rw [q8_of_nonneg h0]
    exact ⟨Int.floor_nonneg.mpr (by positivity), h1⟩
  exact ⟨hfit r (by simp), hfit g (by simp), hfit b (by simp)⟩

section
variable {p : CameraPipeline}

theorem rgbaPreGamma_toNat (h : GainsFit p.frameGains) (rgb : Mem) (k : Int) :
    ((p.rgbaPreGamma rgb k).toNat : Int) = wbValue (q8 (componentGain p.frameGains k)) (rgb k) := by
  obtain ⟨h0, -⟩ := h _ (componentGain_mem p.frameGains k)
  have hq : 0 ≤ q8 (componentGain p.frameGains k) := by
    rw [q8_of_nonneg h0]
    exact Int.floor_nonneg.mpr (by positivity)
  have hb := wbValue_bounds hq (rgb k)
  exact toNat_ofInt_byte hb.1 hb.2

theorem gainByte_one (v : Byte) : gainByte 1 v = v := by
  apply BitVec.eq_of_toNat_eq
  have h := gainByte_toNat (by norm_num : (0 : Rat) ≤ 1) v
  have hv := v.isLt
  rw [mul_one, Int.floor_natCast] at h
  omega

theorem yuvPreGamma_eq (rgb : Mem) {k : Int} (h0 : 0 ≤ k) (h1 : k < p.pixelTotal * 3) :
    p.yuvPreGamma rgb k = gainByte (componentGain p.frameGains k) (rgb k) := by
  simp only [yuvPreGamma]
  split
  · exact (applyGain_updates p.frameGains (by omega)).inside h0 h1
  · rename_i hone
    -- the shortcut skips gains that would not change a byte
    have hg : componentGain p.frameGains k = 1 := by
      have hmem := componentGain_mem p.frameGains k
      simp only [not_or, not_not] at hone
      simp only [hone, List.mem_cons, List.not_mem_nil, or_false, or_self] at hmem
      exact hmem
    rw [hg, gainByte_one]

/-- **The two pre-gamma pictures differ by at most one.** -/
theorem preGamma_difference (h : GainsFit p.frameGains) (rgb : Mem) {k : Int} (h0 : 0 ≤ k)
    (h1 : k < p.pixelTotal * 3) :
    0 ≤ ((p.rgbaPreGamma rgb k).toNat : Int) - (p.yuvPreGamma rgb k).toNat ∧
    ((p.rgbaPreGamma rgb k).toNat : Int) - (p.yuvPreGamma rgb k).toNat ≤ 1 := by
  rw [rgbaPreGamma_toNat h, yuvPreGamma_eq rgb h0 h1]
  exact wb_difference (h _ (componentGain_mem p.frameGains k)).1 (rgb k)

end

/-! ## `processBayerToYuv` -/

/-- `m` holds the picture `rgb` looked up in a table, with opaque alpha. -/
def IsTabled (rgb : Mem) (lut : Nat → Byte) (width height : Int) (flipV : Bool) (m : Mem) : Prop :=
  ∀ x y, 0 ≤ x → x < width → 0 ≤ y → y < height →
    let s := pixelAt rgb width x (if flipV then height - 1 - y else y)
    let o := y * (width * 4) + x * 4
    m o = lut s.r.toNat ∧ m (o + 1) = lut s.g.toNat ∧ m (o + 2) = lut s.b.toNat ∧ m (o + 3) = 255

theorem isTabled_of_isRgba {p : CameraPipeline} (h : GainsFit p.frameGains) {rgb m : Mem}
    {lut : Nat → Byte} {width height : Int} {flipV : Bool}
    (hm : IsRgba rgb (q8 p.frameGains.1, q8 p.frameGains.2.1, q8 p.frameGains.2.2) lut width height
      flipV m) :
    IsTabled (p.rgbaPreGamma rgb) lut width height flipV m := by
  intro x y hx hxw hy hyh
  obtain ⟨hr, hg, hb, ha⟩ := hm x y hx hxw hy hyh
  have hpre (k : Int) : (p.rgbaPreGamma rgb k).toNat =
      (wbValue (q8 (componentGain p.frameGains k)) (rgb k)).toNat := by
    have := rgbaPreGamma_toNat h rgb k
    omega
  have hgain (q : Int) : componentGain p.frameGains (q * 3) = p.frameGains.1 ∧
      componentGain p.frameGains (q * 3 + 1) = p.frameGains.2.1 ∧
      componentGain p.frameGains (q * 3 + 2) = p.frameGains.2.2 := by
    simp only [componentGain]
    grind
  simp only [pixelAt] at hr hg hb ⊢
  rw [hpre, hpre, hpre, (hgain _).1, (hgain _).2.1, (hgain _).2.2]
  exact ⟨hr, hg, hb, ha⟩

section
variable {plat : Platform} {env : Prog.Env KernelOp KernelOp.Ans} {n : Nat} {data : Mem}
  {p : CameraPipeline} {conv : ColorConvNEON}

/-- The pipeline after the demosaic and the updates that precede the gains. -/
def demosaiced (plat : Platform) (env : Prog.Env KernelOp KernelOp.Ans) (n : Nat) (data : Mem)
    (p : CameraPipeline) : CameraPipeline :=
  (Prog.run env n (demosaicFrame plat (some data) p)).2

theorem processBayerToYuv_yuv {rgb : Mem} (hd : p.mDemosaic.isSome) (hc : p.mColorConv = some conv)
    (hrgb : (demosaiced plat env n data p).mRgbBuffer = some rgb) :
    let q := demosaiced plat env n data p
    (Prog.run env n (processBayerToYuv plat (some data) .ycbcr420_888 p)).1 =
      (0, conv.rgbToNv12 (some (applyGamma (plat.lut q.mConfig.gamma) q.pixelTotal
        (q.yuvPreGamma rgb))) 0 (q.mConfig.width * q.mConfig.height).toNat) := by
  obtain ⟨d, hd⟩ := Option.isSome_iff_exists.mp hd
  unfold processBayerToYuv
  rw [Prog.run_stateBind, Prog.run_stateBind]
  simp only [Prog.run_get, hd, hc]
  rw [Prog.run_stateBind]
  change let q := demosaiced plat env n data p
    (Prog.run env _ (StateT.bind get _ q)).1 = _
  generalize demosaiced plat env n data p = q at hrgb ⊢
  have hbuf : Option.map (fun m => applyGamma (plat.lut q.mConfig.gamma) q.pixelTotal
      (if false = true ∨ q.frameGains.1 ≠ 1 ∨ q.frameGains.2.1 ≠ 1 ∨ q.frameGains.2.2 ≠ 1 then
        applyGain q.frameGains.1 q.frameGains.2.1 q.frameGains.2.2 q.pixelTotal m else m))
      q.mRgbBuffer = some (applyGamma (plat.lut q.mConfig.gamma) q.pixelTotal (q.yuvPreGamma rgb)) := by
    rw [hrgb]
    simp only [Option.map_some, yuvPreGamma, Bool.false_eq_true, false_or]
  exact congrArg (fun m => (0, conv.rgbToNv12 m 0 (q.mConfig.width * q.mConfig.height).toNat)) hbuf

theorem processBayerToYuv_rgba {rgb : Mem} (hd : p.mDemosaic.isSome) (hc : p.mColorConv = some conv)
    (hrgb : (demosaiced plat env n data p).mRgbBuffer = some rgb) {format : PixelFormat}
    (hf : format = .rgba8888 ∨ format = .implementationDefined) :
    let q := demosaiced plat env n data p
    (Prog.run env n (processBayerToYuv plat (some data) format p)).1 =
      (0, rgbToRgbaWbGamma (some rgb) q.mConfig.width q.mConfig.height q.frameGains.1
        q.frameGains.2.1 q.frameGains.2.2 q.mGammaLut q.mConfig.flipV) := by
  obtain ⟨d, hd⟩ := Option.isSome_iff_exists.mp hd
  unfold processBayerToYuv
  rw [Prog.run_stateBind, Prog.run_stateBind]
  simp only [Prog.run_get, hd, hc]
  rw [Prog.run_stateBind, ← hrgb]
  rcases hf with rfl | rfl
  · rfl
  · rfl

end

theorem pixelTotal_eq {p : CameraPipeline}
    (h : 4 * (p.mConfig.width.toNat : Int) * p.mConfig.height.toNat ≤ 2 ^ 32) :
    p.pixelTotal = p.mConfig.width.toNat * p.mConfig.height.toNat ∧
    ((p.mConfig.width * p.mConfig.height).toNat : Int) =
      p.mConfig.width.toNat * p.mConfig.height.toNat := by
  have hnat : p.mConfig.width.toNat * p.mConfig.height.toNat ≤ 2 ^ 30 := by
    have : (p.mConfig.width.toNat : Int) * p.mConfig.height.toNat ≤ 2 ^ 30 := by linarith
    exact_mod_cast this
  have hprod : (p.mConfig.width * p.mConfig.height).toNat =
      p.mConfig.width.toNat * p.mConfig.height.toNat := by
    rw [BitVec.toNat_mul]
    exact Nat.mod_eq_of_lt (by omega)
  constructor
  · rw [pixelTotal, BitVec.toInt_eq_toNat_of_lt (by omega), hprod]
    push_cast
    rfl
  · exact_mod_cast hprod

/-- **The two paths agree to one code value**, for every byte and gain, and so for
the pictures that the two output formats of a frame are made from. -/
theorem white_balance_paths_agree :
    (∀ (g : Rat) (v : Byte), 0 ≤ g → ⌊256 * g + 1 / 2⌋ ≤ 65535 →
      let rgba : Int := min 255 ((v.toNat * ⌊256 * g + 1 / 2⌋ + 128) >>> (8 : Nat))
      let yuv : Int := min 255 ⌊(v.toNat : Rat) * g⌋
      0 ≤ rgba - yuv ∧ rgba - yuv ≤ 1) ∧
    ∀ (plat : Platform) (env : Prog.Env KernelOp KernelOp.Ans) (n : Nat) (data rgb : Mem)
      (p : CameraPipeline) (conv : ColorConvNEON) (format : PixelFormat),
      let q := demosaiced plat env n data p
      let w : Int := q.mConfig.width.toNat
      let h : Int := q.mConfig.height.toNat
      let yuv := Prog.run env n (processBayerToYuv plat (some data) .ycbcr420_888 p)
      let rgba := Prog.run env n (processBayerToYuv plat (some data) format p)
      p.mDemosaic.isSome → p.mColorConv = some conv → q.mRgbBuffer = some rgb →
      4 * w * h ≤ 2 ^ 32 → GainsFit q.frameGains →
      format = .rgba8888 ∨ format = .implementationDefined →
      yuv.1 = (0, conv.rgbToNv12 (some (applyGamma (plat.lut q.mConfig.gamma) q.pixelTotal
        (q.yuvPreGamma rgb))) 0 (w * h)) ∧
      rgba.1.1 = 0 ∧
      (∀ out, IsTabled (q.rgbaPreGamma rgb) q.mGammaLut w h q.mConfig.flipV (rgba.1.2 out)) ∧
      ∀ k, 0 ≤ k → k < 3 * w * h →
        0 ≤ ((q.rgbaPreGamma rgb k).toNat : Int) - (q.yuvPreGamma rgb k).toNat ∧
        ((q.rgbaPreGamma rgb k).toNat : Int) - (q.yuvPreGamma rgb k).toNat ≤ 1 := by
  constructor
  · intro g v hg _
    have hdiff := wb_difference hg v
    rw [gainByte_toNat hg, wbValue, q8_of_nonneg hg] at hdiff
    exact hdiff
  · intro plat env n data rgb p conv format q w h yuv rgba hd hc hrgb hsize hgains hf
    have hpixels := pixelTotal_eq hsize
    refine ⟨?_, ?_, ?_, ?_⟩
    · rw [← hpixels.2]
      exact processBayerToYuv_yuv hd hc hrgb
    · exact congrArg Prod.fst (processBayerToYuv_rgba hd hc hrgb hf)
    · intro out
      have hrun : rgba.1 = _ := processBayerToYuv_rgba hd hc hrgb hf
      rw [hrun]
      exact isTabled_of_isRgba hgains
        (rgbToRgbaWbGamma_isRgba rgb out _ _ hsize (GainsFit.q8Gains hgains))
    · intro k h0 h1
      refine preGamma_difference hgains rgb h0 ?_
      rw [hpixels.1]
      linarith

/-- A pipeline that demosaics 5x3 frames with a gain of 3/2. -/
def brightening : CameraPipeline :=
  { CameraPipeline.new 0 ⟨5, 3, 0, 3, 0, 0, true, true, 0, fun _ => 1, 1, false, false, 1, 3 / 2⟩
      (BitVec.ofNat 8) with
    mDemosaic := some ⟨⟨5, 3, 3, 0, 0, 0⟩, true, some fun _ => 0, 32⟩
    mColorConv := some ⟨5, 3, true⟩
    mRgbBuffer := some fun _ => 0 }

theorem brightening_gains (data : Mem) :
    GainsFit (demosaiced flatPlatform kernelGrants 0 data brightening).frameGains := by
  have hgains : (demosaiced flatPlatform kernelGrants 0 data brightening).frameGains =
      (1 * (3 / 2), 1 * (3 / 2), 1 * (3 / 2)) := rfl
  rw [hgains]
  intro g hg
  simp only [one_mul, List.mem_cons, List.not_mem_nil, or_false, or_self] at hg
  subst hg
  exact ⟨by norm_num, by decide +kernel⟩

theorem white_balance_paths_agree_brightening :
    (min 255 (((201 : Byte).toNat * ⌊256 * (1 / 3 : Rat) + 1 / 2⌋ + 128) >>> (8 : Nat)) -
      min 255 ⌊((201 : Byte).toNat : Rat) * (1 / 3)⌋ ≤ 1) ∧
    ∀ k, 0 ≤ k → k < 3 * 5 * 3 →
      let q := demosaiced flatPlatform kernelGrants 0 (BitVec.ofInt 8) brightening
      let rgb := (q.mRgbBuffer.getD fun _ => 0)
      ((q.rgbaPreGamma rgb k).toNat : Int) - (q.yuvPreGamma rgb k).toNat ≤ 1 :=
  ⟨(white_balance_paths_agree.1 (1 / 3) 201 (by norm_num) (by decide +kernel)).2,
    fun k h0 h1 => ((white_balance_paths_agree.2 flatPlatform kernelGrants 0 (BitVec.ofInt 8) _
      brightening ⟨5, 3, true⟩ .rgba8888 rfl rfl rfl (by decide) (brightening_gains _)
      (.inl rfl)).2.2.2 k h0 h1).2⟩

end CameraPipeline

end MochaHal.Camera
