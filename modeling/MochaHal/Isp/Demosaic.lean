import MochaHal.Lib.Loop
import MochaHal.Lib.Neon

/-! The Bayer demosaic of `camera/isp/DemosaicNEON.cpp`.  A buffer is a function
from byte offsets to bytes; the offsets are integers because the edge code also
forms offsets before the start of a buffer.  A frame is one C object, so its
offsets stay below `2^31` and `int` arithmetic on them does not wrap.

`neonRow` follows the source column by column: the mirrored column 0, column 1,
the vector batches of eight columns, the scalar remainder. -/

namespace MochaHal.Demosaic
open MochaHal.Loop MochaHal.Neon

abbrev Byte := BitVec 8
abbrev Mem := Int → Byte

def store (m : Mem) (a : Int) (v : Byte) : Mem := fun i => if i = a then v else m i

/-- `memcpy` of `len` bytes from offset `src` to offset `dst` of one buffer. -/
def memcpy (m : Mem) (dst src len : Int) : Mem := fun i =>
  if dst ≤ i ∧ i < dst + len then m (src + (i - dst)) else m i

structure Rgb where
  r : Byte
  g : Byte
  b : Byte
  deriving DecidableEq, Repr

/-- The three stores `rgb[off]`, `rgb[off+1]`, `rgb[off+2]`. -/
def storeRgb (m : Mem) (off : Int) (p : Rgb) : Mem :=
  store (store (store m off p.r) (off + 1) p.g) (off + 2) p.b

def clamp (v : Int) : Byte :=
  if v >>> (8 : Nat) ≠ 0 then (if v < 0 then 0 else 255) else BitVec.ofInt 8 v

/-! ## Raw samples -/

/-- Sample `i` of the little-endian 16-bit input. -/
def sample16 (inp : Mem) (i : Int) : BitVec 16 := inp (2 * i + 1) ++ inp (2 * i)

/-- One block of sixteen samples. -/
def raw10Block (inp : Mem) (bl : BitVec 16) (i : Int) (out : Mem) : Mem :=
  let blv : Vec 16 8 := vdup (bl.setWidth 8)
  let a : Vec 8 16 := vld1 (sample16 inp) i
  let b : Vec 8 16 := vld1 (sample16 inp) (i + 8)
  let aN : Vec 8 8 := vshrn a 2
  let bN : Vec 8 8 := vshrn b 2
  let v : Vec 16 8 := vcombine aN bN
  vst1 out i (vqsub v blv)

/-- The scalar tail of the conversion. -/
def raw10Scalar (inp : Mem) (bl : BitVec 16) (i : Int) (out : Mem) : Mem :=
  let p : Int := ((sample16 inp i).toNat >>> 2 : Nat) - (bl.toNat : Int)
  store out i (if p > 0 then BitVec.ofInt 8 p else 0)

def raw10To8bit (inp out : Mem) (total : Int) (bl : BitVec 16) : Mem :=
  let (i, out) := forLoop (fun i => i + 16 ≤ total) 16 (raw10Block inp bl) total.toNat 0 out
  (forLoop (fun i => i < total) 1 (raw10Scalar inp bl) total.toNat i out).2

/-! ## One row -/

/-- The value of byte `i` as the `int` of the scalar formulas. -/
def px (row : Mem) (i : Int) : Nat := (row i).toNat

/-- Column 0 has no left neighbour: the right one is counted twice. -/
def edgePixel (row up dn : Mem) (type : Nat) : Rgb :=
  let val := px row 0
  let hv := (px row 1 + px row 1 + px up 0 + px dn 0) >>> 2
  let diag := (px up 1 + px up 1 + px dn 1 + px dn 1) >>> 2
  let h := (px row 1 + px row 1) >>> 1
  let v := (px up 0 + px dn 0) >>> 1
  match type with
  | 0 => ⟨clamp val, clamp hv, clamp diag⟩
  | 1 => ⟨clamp h, clamp val, clamp v⟩
  | 2 => ⟨clamp v, clamp val, clamp h⟩
  | _ => ⟨clamp diag, clamp hv, clamp val⟩

/-- The scalar formulas at column `x` for a pixel of colour type `type`: 0 is R,
1 is G1, 2 is G2 and anything else B.  Column 1 and the even and odd columns of
the remainder loop all use this switch. -/
def scalarPixel (row up dn : Mem) (type : Nat) (x : Int) : Rgb :=
  let val := px row x
  let hv := (px row (x - 1) + px row (x + 1) + px up x + px dn x) >>> 2
  let diag := (px up (x - 1) + px up (x + 1) + px dn (x - 1) + px dn (x + 1)) >>> 2
  let h := (px row (x - 1) + px row (x + 1)) >>> 1
  let v := (px up x + px dn x) >>> 1
  match type with
  | 0 => ⟨clamp val, clamp hv, clamp diag⟩
  | 1 => ⟨clamp h, clamp val, clamp v⟩
  | 2 => ⟨clamp v, clamp val, clamp h⟩
  | _ => ⟨clamp diag, clamp hv, clamp val⟩

/-- Three channel arrays of four pixels, such as `ev_rv4`, `ev_gv4`, `ev_bv4`. -/
structure Quad where
  rv4 : Fin 4 → Byte
  gv4 : Fin 4 → Byte
  bv4 : Fin 4 → Byte

def Quad.pixel (q : Quad) (i : Fin 4) : Rgb := ⟨q.rv4 i, q.gv4 i, q.bv4 i⟩

/-- The first four lanes of a register. -/
def lanes4 (v : Vec 8 8) : Fin 4 → Byte := fun i => v (i.castLE (by decide))

/-- The eight pixels of the batch at `x`: the even columns `x, x+2, x+4, x+6`
and the odd columns after each of them. -/
def batchQuads (row up dn : Mem) (evType odType : Nat) (x : Int) : Quad × Quad :=
  let rLo : Vec 8 8 := vld1 row (x - 1)
  let rHi : Vec 8 8 := vld1 row (x + 1)
  let uV : Vec 8 8 := vld1 up x
  let dV : Vec 8 8 := vld1 dn x
  let uLo : Vec 8 8 := vld1 up (x - 1)
  let dLo : Vec 8 8 := vld1 dn (x - 1)
  let evCenter := (vuzp rLo rLo).2
  let evLeft := (vuzp rLo rLo).1
  let odCenter := (vuzp rHi rHi).1
  let odRight := (vuzp rHi rHi).2
  let evRight := odCenter
  let uEven := (vuzp uV uV).1
  let uOdd := (vuzp uV uV).2
  let dEven := (vuzp dV dV).1
  let dOdd := (vuzp dV dV).2
  let uDiag := (vuzp uLo uLo).1
  let dDiag := (vuzp dLo dLo).1
  -- even positions
  let hvG : Vec 8 8 := vshrn (vaddq (vaddl evLeft evRight) (vaddl uEven dEven)) 2
  let diagB : Vec 8 8 := vshrn (vaddq (vaddl uDiag dDiag) (vaddl uOdd dOdd)) 2
  let diagR := diagB
  -- odd positions
  let odHR := vrhadd evCenter (vext evCenter odRight 1)
  let odVB : Vec 8 8 := vshrn (vaddl uOdd dOdd) 1
  let odHB := odVB
  let evVR : Vec 8 8 := vshrn (vaddl uEven dEven) 1
  let odHSum := vaddl evCenter (vext evCenter odRight 1)
  let odHvG : Vec 8 8 := vshrn (vaddq odHSum (vaddl uOdd dOdd)) 2
  let odDiagL := vaddl uEven dEven
  let odDiagR := vaddl (vext uEven uEven 1) (vext dEven dEven 1)
  let odDiagR8 : Vec 8 8 := vshrn (vaddq odDiagL odDiagR) 2
  let evHB := vrhadd evLeft odCenter
  let evC := lanes4 evCenter
  let odC := lanes4 odCenter
  let ev : Quad := match evType with
    | 0 => ⟨evC, lanes4 hvG, lanes4 diagB⟩
    | 1 => ⟨lanes4 odHR, evC, lanes4 odVB⟩
    | 2 => ⟨lanes4 evVR, evC, lanes4 evHB⟩
    | _ => ⟨lanes4 diagR, lanes4 hvG, evC⟩
  let od : Quad := match odType with
    | 0 => ⟨odC, lanes4 odHvG, lanes4 odDiagR8⟩
    | 1 => ⟨lanes4 odHR, odC, lanes4 odVB⟩
    | 2 => ⟨lanes4 odVB, odC, lanes4 odHB⟩
    | _ => ⟨lanes4 odDiagR8, lanes4 odHvG, odC⟩
  (ev, od)

/-- Iteration `i` of the store loop of a batch. -/
def storePair (ev od : Quad) (outBase x : Int) (rgb : Mem) (i : Fin 4) : Mem :=
  storeRgb (storeRgb rgb (outBase + (x + 2 * (i : Nat)) * 3) (ev.pixel i))
    (outBase + (x + 2 * (i : Nat) + 1) * 3) (od.pixel i)

/-- Store the RGB of all eight pixels of the batch. -/
def batch (row up dn : Mem) (outBase : Int) (evType odType : Nat) (x : Int) (rgb : Mem) : Mem :=
  let (ev, od) := batchQuads row up dn evType odType x
  (List.finRange 4).foldl (storePair ev od outBase x) rgb

/-- One iteration of the scalar remainder: columns `x` and `x + 1`. -/
def remainder (row up dn : Mem) (outBase : Int) (evType odType : Nat) (x : Int) (rgb : Mem) : Mem :=
  storeRgb (storeRgb rgb (outBase + x * 3) (scalarPixel row up dn evType x))
    (outBase + (x + 1) * 3) (scalarPixel row up dn odType (x + 1))

def neonRow (row up dn rgb : Mem) (w outBase : Int) (evType odType : Nat) : Mem :=
  let rgb := storeRgb rgb outBase (edgePixel row up dn evType)
  let rgb := storeRgb rgb (outBase + 3) (scalarPixel row up dn odType 1)
  let (x, rgb) := forLoop (fun x => x + 8 ≤ w - 2) 8
    (batch row up dn outBase evType odType) w.toNat 2 rgb
  (forLoop (fun x => x < w - 2) 2 (remainder row up dn outBase evType odType) w.toNat x rgb).2

/-! ## The frame -/

/-- One iteration of the column replication of `fill_edges`. -/
def fillRow (w : Int) (y : Int) (rgb : Mem) : Mem :=
  let off := y * (w * 3)
  let rgb := store rgb off (rgb (off + 3))
  let rgb := store rgb (off + 1) (rgb (off + 4))
  let rgb := store rgb (off + 2) (rgb (off + 5))
  let rgb := store rgb (off + (w - 1) * 3) (rgb (off + (w - 2) * 3))
  let rgb := store rgb (off + (w - 1) * 3 + 1) (rgb (off + (w - 2) * 3 + 1))
  store rgb (off + (w - 1) * 3 + 2) (rgb (off + (w - 2) * 3 + 2))

def fillEdges (rgb : Mem) (w h : Int) : Mem :=
  let s := w * 3
  let rgb := memcpy rgb 0 s s
  let rgb := memcpy rgb ((h - 1) * s) ((h - 2) * s) s
  (forLoop (fun y => y < h) 1 (fillRow w) h.toNat 0 rgb).2

structure DemosaicParams where
  width : BitVec 16
  height : BitVec 16
  /-- 0=GBRG, 1=GRBG, 2=BGGR, 3=RGGB -/
  bayerPattern : Byte
  offset_x : Byte
  offset_y : Byte
  blackLevel : BitVec 16
  deriving DecidableEq, Repr

/-- The object: a null `mBayerBuf` is `none`. -/
structure DemosaicNEON where
  mParams : DemosaicParams
  mInitialized : Bool
  mBayerBuf : Option Mem
  mBayerBufSize : BitVec 32

/-- `realloc` answers `none` or a block with arbitrary contents past the copied part. -/
def DemosaicNEON.initialize (d : DemosaicNEON) (params : DemosaicParams)
    (realloc : Option Mem) : Int × DemosaicNEON :=
  if params.width = 0 ∨ params.height = 0 then (-1, d)
  else
    let d := { d with mParams := params }
    let needed : BitVec 32 := BitVec.ofNat 32 (params.width.toNat * params.height.toNat + 16)
    if d.mBayerBufSize < needed then
      match realloc with
      | none => (-1, d)
      | some buf =>
        (0, { d with mBayerBuf := some buf, mBayerBufSize := needed + 64, mInitialized := true })
    else (0, { d with mInitialized := true })

/-- Rows of `pos_color`, one per pattern. -/
def posColorTable : List (List Nat) :=
  [[1, 0, 3, 2], [0, 1, 2, 3], [2, 3, 0, 1], [0, 1, 2, 3]]

/-- `pos_color[pat][pe]`.  The pattern is a byte that nothing checks: a row past
the fourth reads the constants that follow the table, `beyond`. -/
def posColor (beyond : Nat → Byte) (pat pe : Nat) : Nat :=
  match posColorTable[pat]? with
  | some r => r.getD pe 0
  | none => (beyond (4 * pat + pe)).toNat

/-- The colour types of the even and odd columns of row `y`. -/
def rowTypes (beyond : Nat → Byte) (p : DemosaicParams) (y : Int) : Nat × Nat :=
  let oy := p.offset_y.toNat % 2
  let ox := p.offset_x.toNat % 2
  let r := ((y + oy) % 2).toNat
  (posColor beyond p.bayerPattern.toNat (r * 2 + ox),
   posColor beyond p.bayerPattern.toNat (r * 2 + 1 - ox))

/-- Iteration `y` of the row loop. -/
def processRow (beyond : Nat → Byte) (p : DemosaicParams) (b8 : Mem) (y : Int) (rgb : Mem) : Mem :=
  let w : Int := p.width.toNat
  let t := rowTypes beyond p y
  neonRow (fun i => b8 (y * w + i)) (fun i => b8 ((y - 1) * w + i))
    (fun i => b8 ((y + 1) * w + i)) rgb w (y * (w * 3)) t.1 t.2

/-- The frame written over `rgb` from the converted samples `b8`. -/
def processFrame (beyond : Nat → Byte) (p : DemosaicParams) (b8 rgb : Mem) : Mem :=
  let w : Int := p.width.toNat
  let h : Int := p.height.toNat
  fillEdges (forLoop (fun y => y < h - 1) 1 (processRow beyond p b8) h.toNat 1 rgb).2 w h

/-- `process`: null pointers are `none`, and the call then leaves the output alone. -/
def DemosaicNEON.process (beyond : Nat → Byte) (d : DemosaicNEON)
    (bayerInput rgbOutput : Option Mem) : DemosaicNEON × Option Mem :=
  match d.mInitialized, bayerInput, rgbOutput, d.mBayerBuf with
  | true, some inp, some rgb, some buf =>
    let w : Int := d.mParams.width.toNat
    let h : Int := d.mParams.height.toNat
    let b8 := raw10To8bit inp buf (w * h) d.mParams.blackLevel
    ({ d with mBayerBuf := some b8 }, some (processFrame beyond d.mParams b8 rgb))
  | _, _, _, _ => (d, rgbOutput)

end MochaHal.Demosaic
