import MochaHal.Isp.ColorConv
import Mathlib.Data.Fin.VecNotation

/-! The frame statistics and per-pixel passes of `camera/CameraPipeline.cpp`:
auto exposure, auto white balance, gain, gamma and the focus metric.  Floating
point values are exact rationals, and the gamma curve `powf(i / 255, gamma)` is a
parameter `lut`. -/

namespace MochaHal.Camera
open MochaHal.Loop MochaHal.Demosaic MochaHal.ColorConv

/-! ## Auto exposure -/

/-- Sum of the luma of every eighth pixel of every eighth row, and their number. -/
def lumaSum (rgb : Mem) (w h : Int) : Nat × Nat :=
  let pixel (y x : Int) (acc : Nat × Nat) : Nat × Nat :=
    let off := (y * w + x) * 3
    (acc.1 + (px rgb off * 77 + px rgb (off + 1) * 150 + px rgb (off + 2) * 29) >>> 8, acc.2 + 1)
  let row (y : Int) (acc : Nat × Nat) : Nat × Nat :=
    (forLoop (fun x => x < w) 8 (pixel y) w.toNat 0 acc).2
  (forLoop (fun y => y < h) 8 row h.toNat 0 (0, 0)).2

/-- `target / avgLuma`, clipped to `[1/2, 4]`. -/
def aeRatio (target avgLuma : Rat) : Rat :=
  let ratio := target / (if avgLuma > 1 / 1000 then avgLuma else 1 / 1000)
  if ratio < 1 / 2 then 1 / 2 else if ratio > 4 then 4 else ratio

/-- The new exposure and gain: a longer exposure is preferred to a higher gain. -/
def aeSelect (exposure gain : Int) (ratio : Rat) : Int × Int :=
  let newExp := truncate (exposure * ratio)
  let (newExp, newGain) :=
    if newExp > 2490 then (2490, truncate (gain * ((newExp : Rat) / 2490)))
    else if gain > 150 ∧ newExp < 2490 then
      let e := truncate (newExp * ((gain : Rat) / 150))
      (if e > 2490 then 2490 else e, 150)
    else (newExp, gain)
  let newExp := if newExp < 10 then 10 else newExp
  let newGain := if newGain > 180 then 180 else newGain
  let newGain := if newGain < 1 then 1 else newGain
  (newExp, newGain)

/-! ## Auto white balance -/

/-- Channel sums over every sixteenth pixel of every sixteenth row, and the count. -/
def channelSums (rgb : Mem) (w h : Int) : Nat × Nat × Nat × Nat :=
  let pixel (y x : Int) (acc : Nat × Nat × Nat × Nat) : Nat × Nat × Nat × Nat :=
    let off := (y * w + x) * 3
    (acc.1 + px rgb off, acc.2.1 + px rgb (off + 1), acc.2.2.1 + px rgb (off + 2), acc.2.2.2 + 1)
  let row (y : Int) (acc : Nat × Nat × Nat × Nat) : Nat × Nat × Nat × Nat :=
    (forLoop (fun x => x < w) 16 (pixel y) w.toNat 0 acc).2
  (forLoop (fun y => y < h) 16 row h.toNat 0 (0, 0, 0, 0)).2

def clipGain (g : Rat) : Rat := if g < 1 / 2 then 1 / 2 else if g > 3 then 3 else g

/-! The places of red, green and blue among the four gains. -/

def wbR : Fin 4 := 0
def wbG : Fin 4 := 1
def wbB : Fin 4 := 2

/-- The new gains, blended with the old ones once there are any; `none` when the
frame is too small or too dark to tell. -/
def awbSelect (gains : Fin 4 → Rat) (hasInit : Bool) (rgb : Mem) (w h : Int) :
    Option (Fin 4 → Rat) :=
  let (sumR, sumG, sumB, count) := channelSums rgb w h
  if count < 100 then none
  else
    let avgR : Rat := sumR / count
    let avgG : Rat := sumG / count
    let avgB : Rat := sumB / count
    if avgR < 5 ∨ avgG < 5 ∨ avgB < 5 then none
    else
      let rGain := clipGain (avgG / avgR)
      let bGain := clipGain (avgG / avgB)
      let alpha : Rat := 3 / 10
      let blend (old new : Rat) : Rat := if hasInit then old * (1 - alpha) + new * alpha else new
      some ![blend (gains wbR) rGain, 1, blend (gains wbB) bGain, 1]

/-! ## Passes over the RGB buffer -/

/-- `(int)(v * g)`, saturated at 255. -/
def gainByte (g : Rat) (v : Byte) : Byte :=
  let r := truncate (v.toNat * g)
  if r > 255 then 255 else BitVec.ofInt 8 r

def gainPixel (rG gG bG : Rat) (i : Int) (rgb : Mem) : Mem :=
  let off := i * 3
  storeRgb rgb off ⟨gainByte rG (rgb off), gainByte gG (rgb (off + 1)), gainByte bG (rgb (off + 2))⟩

def applyGain (rG gG bG : Rat) (total : Int) (rgb : Mem) : Mem :=
  (forLoop (fun i => i < total) 1 (gainPixel rG gG bG) total.toNat 0 rgb).2

/-- `applyGamma` over `width * height` pixels. -/
def applyGamma (curve : Nat → Byte) (total : Int) (rgb : Mem) : Mem :=
  (forLoop (fun i => i < total * 3) 1 (fun i rgb => store rgb i (curve (rgb i).toNat))
    (total * 3).toNat 0 rgb).2

/-! ## Focus metric -/

/-- `abs(row[(x+1)*3+1] - row[(x-1)*3+1])`. -/
def greenGradient (row : Mem) (x : Int) : Int :=
  ((px row ((x + 1) * 3 + 1) : Int) - px row ((x - 1) * 3 + 1)).natAbs

/-- One row of `sobelEnergyNw`: chunks of eight columns, then the rest. -/
def sobelRowNw (row : Mem) (w : Int) (total : Int) : Int :=
  let chunk (x total : Int) : Int :=
    total + (greenGradient row x + greenGradient row (x + 1) + greenGradient row (x + 2) +
      greenGradient row (x + 3) + greenGradient row (x + 4) + greenGradient row (x + 5) +
      greenGradient row (x + 6) + greenGradient row (x + 7))
  let (x, total) := forLoop (fun x => x + 8 < w - 1) 8 chunk w.toNat 1 total
  (forLoop (fun x => x < w - 1) 1 (fun x total => total + greenGradient row x) w.toNat x total).2

def sobelEnergyNw (rgb : Option Mem) (w h : Int) : Int :=
  match rgb with
  | none => 0
  | some rgb =>
    if w < 3 ∨ h < 3 then 0
    else (forLoop (fun y => y < h - 1) 1
      (fun y total => sobelRowNw (fun i => rgb (y * (w * 3) + i)) w total) h.toNat 1 0).2

end MochaHal.Camera
