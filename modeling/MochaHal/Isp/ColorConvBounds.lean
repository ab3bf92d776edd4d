import MochaHal.Isp.ColorConv
import MochaHal.Lib.Stores
import Mathlib.Tactic.Linarith

/-! How far the colour conversions write.  `rgbToRgbaWbGamma_within` and
`rgbToNv12_within` bound the stores by the size of the picture and by the two
planes; offsets only shrink when a 32-bit pointer wraps. -/

namespace MochaHal.ColorConv
open MochaHal.Loop MochaHal.Neon MochaHal.Demosaic MochaHal.Stores

theorem ptr_bounds {off : Int} (h : 0 ≤ off) : 0 ≤ ptr off ∧ ptr off ≤ off := by
  unfold ptr
  omega

theorem within_store {cap off : Int} (v : Byte) (h0 : 0 ≤ off) (h1 : off < cap) :
    Within cap (fun m => store m (ptr off) v) := by
  intro m o ho
  have := ptr_bounds h0
  simp only [store]
  exact if_neg (by omega)

theorem within_vst1_ptr {n : Nat} {cap off : Int} (v : Vec n 8) (h0 : 0 ≤ off) (h1 : off + n ≤ cap) :
    Within cap (fun m => vst1 m (ptr off) v) := by
  have := ptr_bounds h0
  exact within_vst1 v this.1 (by omega)

/-! ## RGBA -/

theorem rgbaPixel_within {cap : Int} (rgb : Mem) (gains : Int × Int × Int) (lut : Nat → Byte)
    (w srcRow : Int) {y x : Int} (h0 : 0 ≤ y * (w * 4) + x * 4)
    (h1 : y * (w * 4) + x * 4 + 4 ≤ cap) : Within cap (rgbaPixel rgb gains lut w srcRow y x) := by
  have hr := within_store (wbScalar lut gains.1 (px rgb ((srcRow * w + x) * 3))) h0 (by omega : _ < cap)
  have hnext (k : Int) (hk : 0 ≤ k ∧ k < 4) (v : Byte) :
      Within cap (fun m => store m (ptr (y * (w * 4) + x * 4 + k)) v) :=
    within_store v (by omega) (by omega)
  have hg := hnext 1 (by omega) (wbScalar lut gains.2.1 (px rgb ((srcRow * w + x) * 3 + 1)))
  have hb := hnext 2 (by omega) (wbScalar lut gains.2.2 (px rgb ((srcRow * w + x) * 3 + 2)))
  exact (hnext 3 (by omega) 255).comp (hb.comp (hg.comp hr))

theorem rgbaRow_within {rgb : Mem} {gains : Int × Int × Int} {lut : Nat → Byte} {w h y : Int}
    {flip : Bool} (hw : 0 ≤ w) (hy : 0 ≤ y) (hyh : y < h) :
    Within (4 * w * h) (rgbaRow rgb gains lut w h flip y) := by
  have hrow : (y + 1) * (w * 4) ≤ 4 * w * h := by nlinarith
  have hbase : 0 ≤ y * (w * 4) := by positivity
  refine within_forLoop₂ (by omega) (by omega) (by decide) ?_ ?_ _ _
  · intro x hx _ hG
    exact within_vst1_ptr _ (by omega) (by push_cast; linarith)
  · intro x hx _ hG
    exact rgbaPixel_within rgb gains lut w _ (by omega) (by linarith)

theorem rgbToRgbaWbGamma_within (rgb : Option Mem) (w h : BitVec 32) (r g b : Rat)
    (lut : Nat → Byte) (flip : Bool) :
    Within (4 * w.toNat * h.toNat) (rgbToRgbaWbGamma rgb w h r g b lut flip) := by
  unfold rgbToRgbaWbGamma
  cases rgb with
  | none => exact within_id
  | some rgb =>
    exact within_forLoop (by omega) (fun y hy _ hG => rgbaRow_within (by omega) hy hG) _

/-! ## NV12 -/

/-- The bytes of the UV plane, up to the last one written. -/
def uvEnd (w h : Int) : Int := ((h + 1) / 2 - 1) * w + 2 * (w / 2)

theorem yRow_within {cap : Int} {rgb : Mem} {w h y : Int} (hw : 0 ≤ w) (hy : 0 ≤ y) (hyh : y < h)
    (hcap : w * h ≤ cap) : Within cap (yRow rgb 0 w y) := by
  have hrow : (y + 1) * w ≤ cap := by nlinarith
  have hbase : 0 ≤ y * w := by positivity
  refine within_forLoop₂ (by omega) (by omega) (by decide) ?_ ?_ _ _
  · intro x hx _ hG
    exact within_vst1_ptr _ (by omega) (by push_cast; linarith)
  · intro x hx _ hG
    exact within_store _ (by omega) (by linarith)

theorem uvPixel_within {cap : Int} (rgb : Mem) {base w y x : Int} (h0 : 0 ≤ base + (y / 2 * w + x))
    (h1 : base + (y / 2 * w + x) + 2 ≤ cap) : Within cap (uvPixel rgb base w y x) := by
  have hu := within_store (bt601 (-38) (-74) 112 128 rgb ((y * w + x) * 3)) h0 (by omega : _ < cap)
  have h0' : 0 ≤ base + (y / 2 * w + x) + 1 := by omega
  have hv := within_store (bt601 112 (-94) (-18) 128 rgb ((y * w + x) * 3)) h0' (by omega : _ < cap)
  exact hv.comp hu

theorem uvRow_within {cap : Int} {rgb : Mem} {base w h y : Int} (hb : 0 ≤ base) (hw : 0 ≤ w)
    (hy : 0 ≤ y) (hyh : y < h) (hcap : w < 2 ∨ base + uvEnd w h ≤ cap) :
    Within cap (uvRow rgb base w y) := by
  have hline : (y / 2) * w ≤ ((h + 1) / 2 - 1) * w :=
    Int.mul_le_mul_of_nonneg_right (by omega) hw
  have hbase : 0 ≤ (y / 2) * w := Int.mul_nonneg (by omega) hw
  unfold uvEnd at hcap
  refine within_forLoop₂ (by omega) (by omega) (by decide) ?_ ?_ _ _
  · intro x hx hd hG
    exact within_vst1_ptr _ (by omega) (by push_cast; omega)
  · intro x hx hd hG
    exact uvPixel_within rgb (by omega) (by omega)

theorem rgbToNv12_within {cap : Int} (c : ColorConvNEON) (rgb : Option Mem) {base : Int}
    (hb : 0 ≤ base) (hy : (c.mWidth.toNat : Int) * c.mHeight.toNat ≤ cap)
    (huv : (c.mWidth.toNat : Int) < 2 ∨ base + uvEnd c.mWidth.toNat c.mHeight.toNat ≤ cap) :
    Within cap (c.rgbToNv12 rgb 0 base) := by
  unfold ColorConvNEON.rgbToNv12
  split
  · refine .comp (within_forLoop (by omega) (fun y hy0 _ hG => ?_) _)
      (within_forLoop (by omega) (fun y hy0 _ hG => ?_) _)
    · exact uvRow_within hb (by omega) hy0 hG huv
    · exact yRow_within (by omega) hy0 hG hy
  · exact within_id

end MochaHal.ColorConv
