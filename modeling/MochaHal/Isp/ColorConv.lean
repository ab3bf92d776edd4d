import MochaHal.Isp.Demosaic
import Mathlib.Data.Rat.Floor

/-! The colour conversions of `camera/isp/ColorConvNEON.cpp`.  The output planes
are offsets into the client's buffer, whose first byte has offset 0; a pointer
has 32 bits, so an offset is taken modulo `2^32` (`ptr`).  Gains are exact
rationals. -/

namespace MochaHal.ColorConv
open MochaHal.Loop MochaHal.Neon MochaHal.Demosaic

/-- Pointer arithmetic of the 32-bit target. -/
def ptr (off : Int) : Int := off % 2 ^ 32

/-- The conversion `(int)q`. -/
def truncate (q : Rat) : Int := q.num.tdiv q.den

theorem truncate_of_nonneg {q : Rat} (h : 0 ≤ q) : truncate q = ⌊q⌋ := by
  rw [truncate, Rat.floor_def', Int.tdiv_eq_ediv_of_nonneg (Rat.num_nonneg.mpr h)]

structure ColorConvNEON where
  mWidth : BitVec 16
  mHeight : BitVec 16
  mInitialized : Bool
  deriving DecidableEq, Repr

def ColorConvNEON.new : ColorConvNEON := ⟨0, 0, false⟩

def ColorConvNEON.initialize (c : ColorConvNEON) (width height : BitVec 16) : Int × ColorConvNEON :=
  if width = 0 ∨ height = 0 then (-1, c) else (0, ⟨width, height, true⟩)

/-! ## NV12 -/

/-- `((cr*r + cg*g + cb*b + 128) >> 8) + bias` on eight pixels: 16-bit products
accumulated in 32 bits, narrowed to 16, biased and saturated. -/
def bt601Lanes (cr cg cb bias : Int) (r g b : Vec 8 8) : Vec 8 8 :=
  let r16 : Vec 8 16 := vmovl r
  let g16 : Vec 8 16 := vmovl g
  let b16 : Vec 8 16 := vmovl b
  let acc : Vec 8 32 := vmullS (vdup (BitVec.ofInt 16 cr)) r16
  let acc : Vec 8 32 := vmlalS acc (vdup (BitVec.ofInt 16 cg)) g16
  let acc : Vec 8 32 := vmlalS acc (vdup (BitVec.ofInt 16 cb)) b16
  let c16 : Vec 8 16 := vshrn (vaddq acc (vdup 128)) 8
  vqmovun (vaddq c16 (vdup (BitVec.ofInt 16 bias)))

/-- The same formula on one pixel, stored into a byte. -/
def bt601 (cr cg cb bias : Int) (rgb : Mem) (p : Int) : Byte :=
  BitVec.ofInt 8 (((cr * px rgb p + cg * px rgb (p + 1) + cb * px rgb (p + 2) + 128) >>> (8 : Nat)) + bias)

def yBatch (rgb : Mem) (yPlane rowBase x : Int) (out : Mem) : Mem :=
  let (r, g, b) := vld3 rgb ((rowBase + x) * 3)
  vst1 out (ptr (yPlane + rowBase + x)) (bt601Lanes 66 129 25 16 r g b)

def yPixel (rgb : Mem) (yPlane rowBase x : Int) (out : Mem) : Mem :=
  store out (ptr (yPlane + rowBase + x)) (bt601 66 129 25 16 rgb ((rowBase + x) * 3))

def yRow (rgb : Mem) (yPlane width y : Int) (out : Mem) : Mem :=
  let rowBase := y * width
  let (x, out) := forLoop (fun x => x + 8 ≤ width) 8 (yBatch rgb yPlane rowBase) width.toNat 0 out
  (forLoop (fun x => x < width) 1 (yPixel rgb yPlane rowBase) width.toNat x out).2

def uvBatch (rgb : Mem) (uvPlane width y x : Int) (out : Mem) : Mem :=
  let uvRow := (y / 2) * width
  let (r, g, b) : Vec 16 8 × Vec 16 8 × Vec 16 8 := vld3 rgb ((y * width + x) * 3)
  -- vuzp of the two halves keeps the even-indexed pixels
  let even (v : Vec 16 8) : Vec 8 8 := fun i => v ⟨2 * i, by omega⟩
  let u := bt601Lanes (-38) (-74) 112 128 (even r) (even g) (even b)
  let v := bt601Lanes 112 (-94) (-18) 128 (even r) (even g) (even b)
  vst2 out (ptr (uvPlane + uvRow + x)) u v

def uvPixel (rgb : Mem) (uvPlane width y x : Int) (out : Mem) : Mem :=
  let uvOff := (y / 2) * width + x
  let p := (y * width + x) * 3
  let out := store out (ptr (uvPlane + uvOff)) (bt601 (-38) (-74) 112 128 rgb p)
  store out (ptr (uvPlane + uvOff + 1)) (bt601 112 (-94) (-18) 128 rgb p)

/-- The remainder loop leaves by `break` at an odd last column. -/
def uvRow (rgb : Mem) (uvPlane width y : Int) (out : Mem) : Mem :=
  let (x, out) := forLoop (fun x => x + 16 ≤ width) 16 (uvBatch rgb uvPlane width y) width.toNat 0 out
  (forLoop (fun x => x < width ∧ ¬ x + 1 ≥ width) 2 (uvPixel rgb uvPlane width y) width.toNat x out).2

/-- `none` is a null `rgb`; the planes are never null when the output is not. -/
def ColorConvNEON.rgbToNv12 (c : ColorConvNEON) (rgb : Option Mem) (yPlane uvPlane : Int)
    (out : Mem) : Mem :=
  match c.mInitialized, rgb with
  | true, some rgb =>
    let width : Int := c.mWidth.toNat
    let height : Int := c.mHeight.toNat
    let out := (forLoop (fun y => y < height) 1 (yRow rgb yPlane width) height.toNat 0 out).2
    (forLoop (fun y => y < height) 2 (uvRow rgb uvPlane width) height.toNat 0 out).2
  | _, _ => out

/-! ## RGBA with white balance, gamma and flip -/

/-- Eight channel values scaled by a Q8 gain; `vdupq_n_u16` keeps 16 bits of it. -/
def wbLanes (gain : Int) (c : Vec 8 8) : Vec 8 8 :=
  let prod : Vec 8 32 := vmullU (vmovl c : Vec 8 16) (vdup (BitVec.ofInt 16 gain))
  let wb : Vec 8 16 := vshrn (vaddq prod (vdup 128)) 8
  vqmovn wb

/-- The `rgba_buf` of eight pixels. -/
def rgbaBuf (gammaLut : Nat → Byte) (r g b : Vec 8 8) : Vec 32 8 := fun j =>
  let i : Fin 8 := ⟨j / 4, by omega⟩
  if j.val % 4 = 0 then gammaLut (r i).toNat
  else if j.val % 4 = 1 then gammaLut (g i).toNat
  else if j.val % 4 = 2 then gammaLut (b i).toNat
  else 255

def rgbaBatch (rgb : Mem) (gains : Int × Int × Int) (gammaLut : Nat → Byte)
    (width srcRow y x : Int) (out : Mem) : Mem :=
  let (r, g, b) := vld3 rgb (srcRow * width * 3 + x * 3)
  vst1 out (ptr (y * (width * 4) + x * 4))
    (rgbaBuf gammaLut (wbLanes gains.1 r) (wbLanes gains.2.1 g) (wbLanes gains.2.2 b))

/-- `gammaLut[v > 255 ? 255 : v]` of the scaled value `v`, which no gain of this
code makes negative. -/
def wbScalar (gammaLut : Nat → Byte) (gain : Int) (c : Nat) : Byte :=
  let v := (c * gain + 128) >>> (8 : Nat)
  gammaLut (if v > 255 then 255 else v.toNat)

def rgbaPixel (rgb : Mem) (gains : Int × Int × Int) (gammaLut : Nat → Byte)
    (width srcRow y x : Int) (out : Mem) : Mem :=
  let si := (srcRow * width + x) * 3
  let di := y * (width * 4) + x * 4
  let out := store out (ptr di) (wbScalar gammaLut gains.1 (px rgb si))
  let out := store out (ptr (di + 1)) (wbScalar gammaLut gains.2.1 (px rgb (si + 1)))
  let out := store out (ptr (di + 2)) (wbScalar gammaLut gains.2.2 (px rgb (si + 2)))
  store out (ptr (di + 3)) 255

def rgbaRow (rgb : Mem) (gains : Int × Int × Int) (gammaLut : Nat → Byte)
    (width height : Int) (flipV : Bool) (y : Int) (out : Mem) : Mem :=
  let srcRow := if flipV then height - 1 - y else y
  let (x, out) := forLoop (fun x => x + 8 ≤ width) 8
    (rgbaBatch rgb gains gammaLut width srcRow y) width.toNat 0 out
  (forLoop (fun x => x < width) 1 (rgbaPixel rgb gains gammaLut width srcRow y) width.toNat x out).2

/-- A gain in Q8 fixed point. -/
def q8 (gain : Rat) : Int := truncate (gain * 256 + 1 / 2)

def rgbToRgbaWbGamma (rgb : Option Mem) (width height : BitVec 32) (rGain gGain bGain : Rat)
    (gammaLut : Nat → Byte) (flipV : Bool) (out : Mem) : Mem :=
  match rgb with
  | none => out
  | some rgb =>
    let w : Int := width.toNat
    let h : Int := height.toNat
    (forLoop (fun y => y < h) 1
      (rgbaRow rgb (q8 rGain, q8 gGain, q8 bGain) gammaLut w h flipV) h.toNat 0 out).2

end MochaHal.ColorConv
