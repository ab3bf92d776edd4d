import MochaHal.Isp.Demosaic
import MochaHal.Lib.Access

/-! Every byte the demosaic touches.  The routines of `camera/isp/DemosaicNEON.cpp` are
written out here as code that loads and stores in the raw input, the internal Bayer buffer
and the output, one access at a time and in the source's order; `exec_process` says that run
on a memory they compute what `DemosaicNEON.process` does.  `process_inBounds_iff` says for
which frames all the accesses stay inside the buffers. -/

namespace MochaHal.DemosaicAccess
open MochaHal.Loop MochaHal.Neon MochaHal.Access MochaHal.Demosaic

inductive Buffer
  | input
  | bayer
  | output
  deriving DecidableEq, Repr

abbrev Isp := Code Buffer 8

/-! ## Raw samples -/

/-- The bytes of a register or a local array, as a buffer. -/
def bytes {n : Nat} (v : Vec n 8) : Mem := fun i => if h : i.toNat < n then v ⟨i.toNat, h⟩ else 0

def raw10Block (bl : BitVec 16) (i : Int) : Isp Unit := do
  let blv : Vec 16 8 := vdup (bl.setWidth 8)
  let tmp ← loadVec .input (i * 2) 32
  let a : Vec 8 16 := vld1 (sample16 (bytes tmp)) 0
  let b : Vec 8 16 := vld1 (sample16 (bytes tmp)) 8
  let aN : Vec 8 8 := vshrn a 2
  let bN : Vec 8 8 := vshrn b 2
  let v : Vec 16 8 := vcombine aN bN
  storeVec .bayer i (vqsub v blv)

def raw10Scalar (bl : BitVec 16) (i : Int) : Isp Unit := do
  let tmp ← loadVec .input (i * 2) 2
  let p : Int := ((sample16 (bytes tmp) 0).toNat >>> 2 : Nat) - (bl.toNat : Int)
  Access.store .bayer i (if p > 0 then BitVec.ofInt 8 p else 0)

def raw10To8bit (total : Int) (bl : BitVec 16) : Isp Unit := do
  let i ← loop (fun i => i + 16 ≤ total) 16 (raw10Block bl) total.toNat 0
  let _ ← loop (fun i => i < total) 1 (raw10Scalar bl) total.toNat i
  return ()

/-! ## One row

`row`, `up` and `dn` are offsets into the Bayer buffer. -/

def storeRgb (off : Int) (p : Rgb) : Isp Unit := do
  Access.store .output off p.r
  Access.store .output (off + 1) p.g
  Access.store .output (off + 2) p.b

def px (i : Int) : Isp Nat := do
  let v ← load .bayer i
  return v.toNat

def mean2 (a b : Int) : Isp Nat := do
  let va ← px a
  let vb ← px b
  return (va + vb) >>> 1

def mean4 (a b c d : Int) : Isp Nat := do
  let va ← px a
  let vb ← px b
  let vc ← px c
  let vd ← px d
  return (va + vb + vc + vd) >>> 2

/-- The switch over the colour type at column `x`, with `l` and `r` the columns it takes for
its neighbours. -/
def pixel (row up dn : Int) (type : Nat) (l x r : Int) : Isp Rgb := do
  let val ← px (row + x)
  match type with
  | 0 => do
    let gv ← mean4 (row + l) (row + r) (up + x) (dn + x)
    let bv ← mean4 (up + l) (up + r) (dn + l) (dn + r)
    return ⟨clamp val, clamp gv, clamp bv⟩
  | 1 => do
    let rv ← mean2 (row + l) (row + r)
    let bv ← mean2 (up + x) (dn + x)
    return ⟨clamp rv, clamp val, clamp bv⟩
  | 2 => do
    let rv ← mean2 (up + x) (dn + x)
    let bv ← mean2 (row + l) (row + r)
    return ⟨clamp rv, clamp val, clamp bv⟩
  | _ => do
    let gv ← mean4 (row + l) (row + r) (up + x) (dn + x)
    let rv ← mean4 (up + l) (up + r) (dn + l) (dn + r)
    return ⟨clamp rv, clamp gv, clamp val⟩

def edgePixel (row up dn : Int) (type : Nat) : Isp Rgb := pixel row up dn type 1 0 1

def scalarPixel (row up dn : Int) (type : Nat) (x : Int) : Isp Rgb :=
  pixel row up dn type (x - 1) x (x + 1)

/-- What two registers, loaded `k` bytes apart, show of a buffer. -/
def overlay (k : Nat) (lo hi : Vec 8 8) : Mem := fun i =>
  if i < 8 then bytes lo i else bytes hi (i - k)

def storePairs (ev od : Quad) (outBase x : Int) : List (Fin 4) → Isp Unit
  | [] => pure ()
  | i :: rest => do
    storeRgb (outBase + (x + 2 * (i : Nat)) * 3) (ev.pixel i)
    storeRgb (outBase + (x + 2 * (i : Nat) + 1) * 3) (od.pixel i)
    storePairs ev od outBase x rest

/-- The six vector loads of a batch, its arithmetic on the registers, and its stores. -/
def batch (row up dn outBase : Int) (evType odType : Nat) (x : Int) : Isp Unit := do
  let rLo ← loadVec .bayer (row + x - 1) 8
  let rHi ← loadVec .bayer (row + x + 1) 8
  let uV ← loadVec .bayer (up + x) 8
  let dV ← loadVec .bayer (dn + x) 8
  let uLo ← loadVec .bayer (up + x - 1) 8
  let dLo ← loadVec .bayer (dn + x - 1) 8
  let q := batchQuads (overlay 2 rLo rHi) (overlay 1 uLo uV) (overlay 1 dLo dV) evType odType 1
  storePairs q.1 q.2 outBase x (List.finRange 4)

def remainder (row up dn outBase : Int) (evType odType : Nat) (x : Int) : Isp Unit := do
  let e ← scalarPixel row up dn evType x
  storeRgb (outBase + x * 3) e
  let o ← scalarPixel row up dn odType (x + 1)
  storeRgb (outBase + (x + 1) * 3) o

def neonRow (row up dn w outBase : Int) (evType odType : Nat) : Isp Unit := do
  let p ← edgePixel row up dn evType
  storeRgb outBase p
  let p ← scalarPixel row up dn odType 1
  storeRgb (outBase + 3) p
  let x ← loop (fun x => x + 8 ≤ w - 2) 8 (batch row up dn outBase evType odType) w.toNat 2
  let _ ← loop (fun x => x < w - 2) 2 (remainder row up dn outBase evType odType) w.toNat x
  return ()

/-! ## The frame -/

/-- `rgb[dst] = rgb[src]` -/
def move (dst src : Int) : Isp Unit := do
  let v ← load .output src
  Access.store .output dst v

def fillRow (w y : Int) : Isp Unit := do
  let off := y * (w * 3)
  move off (off + 3)
  move (off + 1) (off + 4)
  move (off + 2) (off + 5)
  move (off + (w - 1) * 3) (off + (w - 2) * 3)
  move (off + (w - 1) * 3 + 1) (off + (w - 2) * 3 + 1)
  move (off + (w - 1) * 3 + 2) (off + (w - 2) * 3 + 2)

def fillEdges (w h : Int) : Isp Unit := do
  let s := w * 3
  copy .output 0 s s.toNat
  copy .output ((h - 1) * s) ((h - 2) * s) s.toNat
  let _ ← loop (fun y => y < h) 1 (fillRow w) h.toNat 0
  return ()

def processRow (beyond : Nat → Byte) (p : DemosaicParams) (y : Int) : Isp Unit :=
  let w : Int := p.width.toNat
  let t := rowTypes beyond p y
  neonRow (y * w) ((y - 1) * w) ((y + 1) * w) w (y * (w * 3)) t.1 t.2

/-- The body of `process`, behind its checks. -/
def processFrame (beyond : Nat → Byte) (p : DemosaicParams) : Isp Unit := do
  let w : Int := p.width.toNat
  let h : Int := p.height.toNat
  raw10To8bit (w * h) p.blackLevel
  let _ ← loop (fun y => y < h - 1) 1 (processRow beyond p) h.toNat 1
  fillEdges w h

/-- `process` on an input and an output that are there. -/
def process (beyond : Nat → Byte) (d : DemosaicNEON) : Isp Unit :=
  match d.mInitialized, d.mBayerBuf with
  | true, some _ => processFrame beyond d.mParams
  | _, _ => pure ()

/-! ## What the code computes -/

/-- The memory with the given contents. -/
def buffers (inp b8 rgb : Mem) : Memory Buffer 8
  | .input => inp
  | .bayer => b8
  | .output => rgb

section

variable (inp b8 rgb : Mem)

@[simp] theorem buffers_input : buffers inp b8 rgb .input = inp := rfl

@[simp] theorem buffers_bayer : buffers inp b8 rgb .bayer = b8 := rfl

@[simp] theorem buffers_output : buffers inp b8 rgb .output = rgb := rfl

@[simp] theorem replace_bayer (f : Mem) :
    replace (buffers inp b8 rgb) .bayer f = buffers inp f rgb := by
  funext c
  cases c <;> rfl

@[simp] theorem replace_output (f : Mem) :
    replace (buffers inp b8 rgb) .output f = buffers inp b8 f := by
  funext c
  cases c <;> rfl

theorem bytes_vld1 {n : Nat} (f : Mem) (addr i : Int) (h0 : 0 ≤ i) (hn : i < n) :
    bytes (vld1 f addr : Vec n 8) i = f (addr + i) := by
  have h : i.toNat < n := by omega
  rw [bytes, dif_pos h, vld1]
  congr 1
  simp only [Int.toNat_of_nonneg h0]

/-- Sample `j` of a block that starts at sample `i`. -/
theorem sample16_bytes {n : Nat} (i j : Int) (h0 : 0 ≤ j) (hn : 2 * j + 1 < n) :
    sample16 (bytes (vld1 inp (i * 2) : Vec n 8)) j = sample16 inp (i + j) := by
  rw [sample16, sample16, bytes_vld1 _ _ _ (by omega) hn, bytes_vld1 _ _ _ (by omega) (by omega)]
  congr 2 <;> omega

theorem exec_raw10Block (bl : BitVec 16) (i : Int) :
    exec (raw10Block bl i) (buffers inp b8 rgb) =
      ((), buffers inp (Demosaic.raw10Block inp bl i b8) rgb) := by
  have hblock (k : Int) (h0 : 0 ≤ k) (hk : k ≤ 8) :
      (vld1 (sample16 (bytes (vld1 inp (i * 2) : Vec 32 8))) k : Vec 8 16) =
        vld1 (sample16 inp) (i + k) := by
    funext j
    rw [vld1, vld1, sample16_bytes _ _ _ (by omega) (by omega), Int.add_assoc]
  simp only [raw10Block, exec_bind, exec_loadVec, exec_storeVec, replace_bayer, buffers_input,
    buffers_bayer]
  rw [hblock 0 (by omega) (by omega), hblock 8 (by omega) (by omega), Int.add_zero]
  rfl

theorem exec_raw10Scalar (bl : BitVec 16) (i : Int) :
    exec (raw10Scalar bl i) (buffers inp b8 rgb) =
      ((), buffers inp (Demosaic.raw10Scalar inp bl i b8) rgb) := by
  simp only [raw10Scalar, exec_bind, exec_loadVec, exec_store, replace_bayer, buffers_input,
    buffers_bayer]
  rw [sample16_bytes inp i 0 (by omega) (by omega), Int.add_zero]
  rfl

theorem exec_raw10To8bit (total : Int) (bl : BitVec 16) :
    exec (raw10To8bit total bl) (buffers inp b8 rgb) =
      ((), buffers inp (Demosaic.raw10To8bit inp b8 total bl) rgb) := by
  simp only [raw10To8bit, exec_bind, exec_pure]
  rw [exec_loop_map (fun m => buffers inp m rgb) fun x m => exec_raw10Block inp m rgb bl x,
    exec_loop_map (fun m => buffers inp m rgb) fun x m => exec_raw10Scalar inp m rgb bl x]
  rfl

/-! ### Rows -/

/-- The Bayer buffer from an offset on. -/
def window (b8 : Mem) (start : Int) : Mem := fun i => b8 (start + i)

theorem exec_storeRgb (off : Int) (p : Rgb) :
    exec (storeRgb off p) (buffers inp b8 rgb) =
      ((), buffers inp b8 (Demosaic.storeRgb rgb off p)) := by
  simp only [storeRgb, exec_bind, exec_store, buffers_output, replace_output]
  rfl

theorem exec_edgePixel (row up dn : Int) (type : Nat) :
    exec (edgePixel row up dn type) (buffers inp b8 rgb) =
      (Demosaic.edgePixel (window b8 row) (window b8 up) (window b8 dn) type, buffers inp b8 rgb) := by
  rcases type with _ | _ | _ | type <;> rfl

theorem exec_scalarPixel (row up dn : Int) (type : Nat) (x : Int) :
    exec (scalarPixel row up dn type x) (buffers inp b8 rgb) =
      (Demosaic.scalarPixel (window b8 row) (window b8 up) (window b8 dn) type x,
        buffers inp b8 rgb) := by
  rcases type with _ | _ | _ | type <;> rfl

/-- A batch sees its three rows only through the six registers. -/
theorem batchQuads_congr {row up dn row' up' dn' : Mem} {x x' : Int} (evType odType : Nat)
    (hrLo : (vld1 row (x - 1) : Vec 8 8) = vld1 row' (x' - 1))
    (hrHi : (vld1 row (x + 1) : Vec 8 8) = vld1 row' (x' + 1))
    (huV : (vld1 up x : Vec 8 8) = vld1 up' x') (hdV : (vld1 dn x : Vec 8 8) = vld1 dn' x')
    (huLo : (vld1 up (x - 1) : Vec 8 8) = vld1 up' (x' - 1))
    (hdLo : (vld1 dn (x - 1) : Vec 8 8) = vld1 dn' (x' - 1)) :
    batchQuads row up dn evType odType x = batchQuads row' up' dn' evType odType x' := by
  unfold batchQuads
  rw [hrLo, hrHi, huV, hdV, huLo, hdLo]

/-- Registers loaded `k` bytes apart show the buffer as it is, over both of them. -/
theorem overlay_vld1 {k : Nat} (hk : k ≤ 8) (f : Mem) {lo hi i : Int} (hhi : hi = lo + k) (h0 : 0 ≤ i)
    (hi8 : i < 8 + k) : overlay k (vld1 f lo) (vld1 f hi) i = f (lo + i) := by
  unfold overlay
  by_cases hlo : i < 8
  · rw [if_pos hlo, bytes_vld1 f _ _ h0 hlo]
  · rw [if_neg hlo, bytes_vld1 f _ _ (by omega) (by omega)]
    congr 1
    omega

theorem register_overlay {k : Nat} (hk : k ≤ 8) (f : Mem) {start lo hi j x : Int} (hhi : hi = lo + k)
    (h0 : 0 ≤ j) (hj : j ≤ k) (hx : start + x = lo + j) :
    (vld1 (overlay k (vld1 f lo) (vld1 f hi)) j : Vec 8 8) = vld1 (window f start) x := by
  funext i
  rw [vld1, overlay_vld1 hk f hhi (by omega) (by omega), vld1, window]
  congr 1
  omega

theorem exec_storePairs (ev od : Quad) (outBase x : Int) (is : List (Fin 4)) :
    exec (storePairs ev od outBase x is) (buffers inp b8 rgb) =
      ((), buffers inp b8 (is.foldl (storePair ev od outBase x) rgb)) := by
  induction is generalizing rgb with
  | nil => rfl
  | cons i rest ih =>
    simp only [storePairs, exec_bind, exec_storeRgb, ih]
    rfl

theorem exec_batch (row up dn outBase : Int) (evType odType : Nat) (x : Int) :
    exec (batch row up dn outBase evType odType x) (buffers inp b8 rgb) =
      ((), buffers inp b8 (Demosaic.batch (window b8 row) (window b8 up) (window b8 dn) outBase
        evType odType x rgb)) := by
  have hquads : batchQuads
      (overlay 2 (vld1 b8 (row + x - 1)) (vld1 b8 (row + x + 1)))
      (overlay 1 (vld1 b8 (up + x - 1)) (vld1 b8 (up + x)))
      (overlay 1 (vld1 b8 (dn + x - 1)) (vld1 b8 (dn + x))) evType odType 1 =
      batchQuads (window b8 row) (window b8 up) (window b8 dn) evType odType x := by
    apply batchQuads_congr
    all_goals exact register_overlay (by omega) b8 (by omega) (by omega) (by omega) (by omega)
  simp only [batch, exec_bind, exec_loadVec, buffers_bayer, exec_storePairs, hquads]
  rfl

theorem exec_remainder (row up dn outBase : Int) (evType odType : Nat) (x : Int) :
    exec (remainder row up dn outBase evType odType x) (buffers inp b8 rgb) =
      ((), buffers inp b8 (Demosaic.remainder (window b8 row) (window b8 up) (window b8 dn) outBase
        evType odType x rgb)) := by
  simp only [remainder, exec_bind, exec_scalarPixel, exec_storeRgb]
  rfl

theorem exec_neonRow (row up dn w outBase : Int) (evType odType : Nat) :
    exec (neonRow row up dn w outBase evType odType) (buffers inp b8 rgb) =
      ((), buffers inp b8 (Demosaic.neonRow (window b8 row) (window b8 up) (window b8 dn) rgb w
        outBase evType odType)) := by
  simp only [neonRow, exec_bind, exec_edgePixel, exec_scalarPixel, exec_storeRgb, exec_pure]
  rw [exec_loop_map (buffers inp b8) fun x m => exec_batch inp b8 m row up dn outBase evType odType x,
    exec_loop_map (buffers inp b8) fun x m => exec_remainder inp b8 m row up dn outBase evType odType x]
  rfl

/-! ### The frame -/

theorem exec_move (dst src : Int) :
    exec (move dst src) (buffers inp b8 rgb) =
      ((), buffers inp b8 (Demosaic.store rgb dst (rgb src))) := by
  simp only [move, exec_bind, exec_load, exec_store, buffers_output, replace_output]
  rfl

theorem exec_fillRow (w y : Int) :
    exec (fillRow w y) (buffers inp b8 rgb) = ((), buffers inp b8 (Demosaic.fillRow w y rgb)) := by
  simp only [fillRow, exec_bind, exec_move]
  rfl

theorem exec_copyRow {dst src len : Int} (hlen : 0 ≤ len) (hd : dst + len ≤ src ∨ src + len ≤ dst) :
    exec (copy .output dst src len.toNat) (buffers inp b8 rgb) =
      ((), buffers inp b8 (memcpy rgb dst src len)) := by
  have hd' : dst + (len.toNat : Int) ≤ src ∨ src + (len.toNat : Int) ≤ dst := by omega
  rw [exec_copy Buffer.output hd', buffers_output, replace_output, Int.toNat_of_nonneg hlen]
  rfl

theorem exec_fillEdges {w : Int} (hw : 0 ≤ w) (h : Int) :
    exec (fillEdges w h) (buffers inp b8 rgb) =
      ((), buffers inp b8 (Demosaic.fillEdges rgb w h)) := by
  have hrow : (h - 1) * (w * 3) = (h - 2) * (w * 3) + w * 3 := by
    rw [Int.sub_mul, Int.sub_mul]
    omega
  simp only [fillEdges, exec_bind, exec_pure]
  rw [exec_copyRow inp b8 rgb (by omega) (by omega), exec_copyRow inp b8 _ (by omega) (by omega),
    exec_loop_map (buffers inp b8) fun y m => exec_fillRow inp b8 m w y]
  rfl

theorem exec_processRow (beyond : Nat → Byte) (p : DemosaicParams) (y : Int) :
    exec (processRow beyond p y) (buffers inp b8 rgb) =
      ((), buffers inp b8 (Demosaic.processRow beyond p b8 y rgb)) :=
  exec_neonRow inp b8 rgb _ _ _ _ _ _ _

theorem exec_processFrame (beyond : Nat → Byte) (p : DemosaicParams) :
    exec (processFrame beyond p) (buffers inp b8 rgb) =
      let converted := Demosaic.raw10To8bit inp b8 (p.width.toNat * p.height.toNat) p.blackLevel
      ((), buffers inp converted (Demosaic.processFrame beyond p converted rgb)) := by
  simp only [processFrame, exec_bind, exec_raw10To8bit]
  rw [exec_loop_map (buffers inp _) fun y m => exec_processRow inp _ m beyond p y,
    exec_fillEdges _ _ _ (by omega)]
  rfl

end

/-- **The code computes the demosaic.** -/
theorem exec_process (beyond : Nat → Byte) (d : DemosaicNEON) (inp b8 rgb : Mem)
    (hbuf : d.mBayerBuf = some b8) :
    d.process beyond (some inp) (some rgb) =
      let m := (exec (process beyond d) (buffers inp b8 rgb)).2
      ({ d with mBayerBuf := some (m .bayer) }, some (m .output)) := by
  obtain ⟨params, initialized, buf, size⟩ := d
  obtain rfl := hbuf
  cases initialized with
  | false => rfl
  | true =>
    show _ = ((⟨params, true, some ((exec (processFrame beyond params) _).2 .bayer), size⟩ :
      DemosaicNEON), some ((exec (processFrame beyond params) _).2 .output))
    rw [exec_processFrame]
    rfl

/-! ## Bounds -/

section

variable {inside : Buffer × Int → Prop}

theorem raw10Block_within (bl : BitVec 16) {i total : Int} (hin : Covers inside .input 0 (2 * total))
    (hb : Covers inside .bayer 0 total) (h0 : 0 ≤ i) (hi : i + 16 ≤ total) :
    Within inside (raw10Block bl i) := by
  unfold raw10Block
  exact .bind (hin.loadVec (by omega) (by omega)) fun _ => hb.storeVec h0 (by omega)

theorem raw10Scalar_within (bl : BitVec 16) {i total : Int} (hin : Covers inside .input 0 (2 * total))
    (hb : Covers inside .bayer 0 total) (h0 : 0 ≤ i) (hi : i < total) :
    Within inside (raw10Scalar bl i) := by
  unfold raw10Scalar
  exact .bind (hin.loadVec (by omega) (by omega)) fun _ => hb.store h0 hi

theorem raw10To8bit_within {total : Int} (bl : BitVec 16)
    (hin : Covers inside .input 0 (2 * total)) (hb : Covers inside .bayer 0 total) :
    Within inside (raw10To8bit total bl) := by
  refine .bind_post (within_loop (by omega) (fun i hi hlt => ?_) _) (loop_counter (by omega) _ 0)
    fun x hx => .bind (within_loop (by omega) (fun i hi hlt => ?_) _) fun _ => within_pure _
  · exact raw10Block_within bl hin hb hi (of_decide_eq_true hlt)
  · exact raw10Scalar_within bl hin hb (by omega) (of_decide_eq_true hlt)

theorem storeRgb_within {lo hi off : Int} (p : Rgb) (ho : Covers inside .output lo hi) (hlo : lo ≤ off)
    (hhi : off + 3 ≤ hi) : Within inside (storeRgb off p) :=
  .bind (ho.store hlo (by omega)) fun _ =>
    .bind (ho.store (by omega) (by omega)) fun _ => ho.store (by omega) (by omega)

/-- What `neon_row` may touch: the columns `0 .. w` of three rows, the last of which may lie
behind the row, and the pixels of one output row. -/
structure RowCovered (inside : Buffer × Int → Prop) (row up dn w outBase : Int) : Prop where
  row : Covers inside .bayer row (row + w + 1)
  up : Covers inside .bayer up (up + w + 1)
  dn : Covers inside .bayer dn (dn + w + 1)
  out : Covers inside .output outBase (outBase + w * 3)

variable {row up dn w outBase : Int} (hc : RowCovered inside row up dn w outBase)

include hc

theorem RowCovered.pixel (type : Nat) {l x r : Int} (hl : 0 ≤ l ∧ l ≤ w) (hx : 0 ≤ x ∧ x ≤ w)
    (hr : 0 ≤ r ∧ r ≤ w) : Within inside (DemosaicAccess.pixel row up dn type l x r) := by
  have px {b : Int} (hb : Covers inside .bayer b (b + w + 1)) {c : Int} (hc : 0 ≤ c ∧ c ≤ w) :
      Within inside (px (b + c)) :=
    .bind (hb.load (by omega) (by omega)) fun _ => within_pure _
  have hhv : Within inside (mean4 (row + l) (row + r) (up + x) (dn + x)) :=
    .bind (px hc.row hl) fun _ => .bind (px hc.row hr) fun _ => .bind (px hc.up hx) fun _ =>
      .bind (px hc.dn hx) fun _ => within_pure _
  have hdiag : Within inside (mean4 (up + l) (up + r) (dn + l) (dn + r)) :=
    .bind (px hc.up hl) fun _ => .bind (px hc.up hr) fun _ => .bind (px hc.dn hl) fun _ =>
      .bind (px hc.dn hr) fun _ => within_pure _
  have hh : Within inside (mean2 (row + l) (row + r)) :=
    .bind (px hc.row hl) fun _ => .bind (px hc.row hr) fun _ => within_pure _
  have hv : Within inside (mean2 (up + x) (dn + x)) :=
    .bind (px hc.up hx) fun _ => .bind (px hc.dn hx) fun _ => within_pure _
  refine .bind (px hc.row hx) fun _ => ?_
  rcases type with _ | _ | _ | type
  · exact .bind hhv fun _ => .bind hdiag fun _ => within_pure _
  · exact .bind hh fun _ => .bind hv fun _ => within_pure _
  · exact .bind hv fun _ => .bind hh fun _ => within_pure _
  · exact .bind hhv fun _ => .bind hdiag fun _ => within_pure _

theorem RowCovered.storePairs (ev od : Quad) {x : Int} (hx : 0 ≤ x) (hxw : x + 8 ≤ w)
    (is : List (Fin 4)) : Within inside (DemosaicAccess.storePairs ev od outBase x is) := by
  induction is with
  | nil => exact within_pure _
  | cons i rest ih =>
    exact .bind (storeRgb_within _ hc.out (by omega) (by omega)) fun _ =>
      .bind (storeRgb_within _ hc.out (by omega) (by omega)) fun _ => ih

/-- The vector loads of a batch end two columns before the row does. -/
theorem RowCovered.batch (evType odType : Nat) {x : Int} (hx : 2 ≤ x) (hxw : x + 8 ≤ w - 2) :
    Within inside (DemosaicAccess.batch row up dn outBase evType odType x) :=
  .bind (hc.row.loadVec (by omega) (by omega)) fun _ =>
  .bind (hc.row.loadVec (by omega) (by omega)) fun _ =>
  .bind (hc.up.loadVec (by omega) (by omega)) fun _ =>
  .bind (hc.dn.loadVec (by omega) (by omega)) fun _ =>
  .bind (hc.up.loadVec (by omega) (by omega)) fun _ =>
  .bind (hc.dn.loadVec (by omega) (by omega)) fun _ =>
  hc.storePairs _ _ (by omega) (by omega) _

theorem RowCovered.remainder (evType odType : Nat) {x : Int} (hx : 2 ≤ x) (hxw : x < w - 2) :
    Within inside (DemosaicAccess.remainder row up dn outBase evType odType x) :=
  .bind (hc.pixel evType (by omega) (by omega) (by omega)) fun _ =>
  .bind (storeRgb_within _ hc.out (by omega) (by omega)) fun _ =>
  .bind (hc.pixel odType (by omega) (by omega) (by omega)) fun _ =>
  storeRgb_within _ hc.out (by omega) (by omega)

/-- **One row of two columns or more.** -/
theorem RowCovered.neonRow (evType odType : Nat) (hw : 2 ≤ w) :
    Within inside (DemosaicAccess.neonRow row up dn w outBase evType odType) := by
  refine .bind (hc.pixel evType (by omega) (by omega) (by omega)) fun _ =>
    .bind (storeRgb_within _ hc.out (by omega) (by omega)) fun _ =>
    .bind (hc.pixel odType (by omega) (by omega) (by omega)) fun _ =>
    .bind (storeRgb_within _ hc.out (by omega) (by omega)) fun _ =>
    .bind_post (within_loop (by omega) (fun x hx hlt => ?_) _) (loop_counter (by omega) _ 2)
    fun x hx => .bind (within_loop (by omega) (fun i hi hlt => ?_) _) fun _ => within_pure _
  · exact hc.batch _ _ hx (of_decide_eq_true hlt)
  · exact hc.remainder _ _ (by omega) (of_decide_eq_true hlt)

end

/-! ### The frame -/

section

variable {inside : Buffer × Int → Prop} {w h : Int}

/-- Row `y` ends inside a frame of `h` rows of `s`. -/
theorem row_end {s y : Int} (hs : 0 ≤ s) (hy : y < h) : y * s + s ≤ h * s := by
  have := Int.mul_le_mul_of_nonneg_right (show y + 1 ≤ h by omega) hs
  rwa [Int.add_mul, Int.one_mul] at this

theorem move_within {lo hi dst src : Int} (ho : Covers inside .output lo hi) (hd : lo ≤ dst ∧ dst < hi)
    (hs : lo ≤ src ∧ src < hi) : Within inside (move dst src) :=
  .bind (ho.load hs.1 hs.2) fun _ => ho.store hd.1 hd.2

theorem fillRow_within {y : Int} (hw : 2 ≤ w)
    (ho : Covers inside .output (y * (w * 3)) (y * (w * 3) + w * 3)) : Within inside (fillRow w y) :=
  .bind (move_within ho (by omega) (by omega)) fun _ =>
  .bind (move_within ho (by omega) (by omega)) fun _ =>
  .bind (move_within ho (by omega) (by omega)) fun _ =>
  .bind (move_within ho (by omega) (by omega)) fun _ =>
  .bind (move_within ho (by omega) (by omega)) fun _ => move_within ho (by omega) (by omega)

theorem fillEdges_within (hw : 2 ≤ w) (hh : 2 ≤ h) (ho : Covers inside .output 0 (h * (w * 3))) :
    Within inside (fillEdges w h) := by
  have hs : 0 ≤ w * 3 := by omega
  have hfirst := row_end hs (show 1 < h by omega)
  have hlast := row_end hs (show h - 1 < h by omega)
  have hprev := row_end hs (show h - 2 < h by omega)
  have hprev0 := Int.mul_nonneg (show 0 ≤ h - 2 by omega) hs
  have hlast0 := Int.mul_nonneg (show 0 ≤ h - 1 by omega) hs
  refine .bind (ho.copy (by omega) (by omega) (by omega) (by omega)) fun _ =>
    .bind (ho.copy hprev0 (by omega) hlast0 (by omega)) fun _ =>
    .bind (within_loop (by omega) (fun y hy hlt => ?_) _) fun _ => within_pure _
  have hend := row_end hs (of_decide_eq_true hlt)
  exact fillRow_within hw (ho.shrink (Int.mul_nonneg hy hs) hend)

theorem processRow_within (beyond : Nat → Byte) (p : DemosaicParams) {y : Int}
    (hw : 2 ≤ (p.width.toNat : Int)) (hy : 1 ≤ y) (hyh : y < h - 1)
    (hb : Covers inside .bayer 0 (h * p.width.toNat + 1))
    (ho : Covers inside .output 0 (h * (p.width.toNat * 3))) :
    Within inside (processRow beyond p y) := by
  have hw0 : 0 ≤ (p.width.toNat : Int) := by omega
  have hrow (r : Int) (h0 : 0 ≤ r) (hr : r < h) :
      Covers inside .bayer (r * p.width.toNat) (r * p.width.toNat + p.width.toNat + 1) :=
    hb.shrink (Int.mul_nonneg h0 hw0) (by have := row_end hw0 hr; omega)
  refine RowCovered.neonRow ⟨hrow y ?_ ?_, hrow (y - 1) ?_ ?_, hrow (y + 1) ?_ ?_, ?_⟩ _ _ hw
  case refine_7 =>
    exact ho.shrink (Int.mul_nonneg (by omega) (by omega)) (row_end (by omega) (by omega))
  all_goals omega

theorem outputSize_eq (p : DemosaicParams) :
    (p.height.toNat : Int) * (p.width.toNat * 3) = 3 * (p.width.toNat * p.height.toNat) := by
  rw [← Int.mul_assoc, Int.mul_comm, Int.mul_comm (p.height.toNat : Int)]

theorem processFrame_within (beyond : Nat → Byte) (p : DemosaicParams) (hw : 2 ≤ p.width.toNat)
    (hh : 2 ≤ p.height.toNat)
    (hin : Covers inside .input 0 (2 * (p.width.toNat * p.height.toNat)))
    (hb : Covers inside .bayer 0 (p.width.toNat * p.height.toNat + 1))
    (ho : Covers inside .output 0 (3 * (p.width.toNat * p.height.toNat))) :
    Within inside (processFrame beyond p) := by
  have hrows : (p.height.toNat : Int) * p.width.toNat = p.width.toNat * p.height.toNat :=
    Int.mul_comm _ _
  refine .bind (raw10To8bit_within _ hin (hb.shrink (by omega) (by omega))) fun _ =>
    .bind (within_loop (by omega) (fun y hy hlt => ?_) _) fun _ => ?_
  · exact processRow_within beyond p (by omega) hy (of_decide_eq_true hlt) (by rwa [hrows])
      (by rwa [outputSize_eq])
  · exact fillEdges_within (by omega) (by omega) (by rwa [outputSize_eq])

end

/-! ## Which frames stay inside -/

/-- The places of buffers with the given capacities.  An index is an `int`. -/
def Inside (capacity : Buffer → Nat) (a : Buffer × Int) : Prop :=
  0 ≤ a.2 ∧ a.2 < capacity a.1 ∧ a.2 < 2 ^ 31

theorem covers_inside {capacity : Buffer → Nat} {b : Buffer} {n : Int} (hn : n ≤ capacity b)
    (hint : n ≤ 2 ^ 31) : Covers (Inside capacity) b 0 n :=
  fun a h0 hlt => ⟨h0, by show a < (capacity b : Int); omega, by show a < 2 ^ 31; omega⟩

/-- The buffers of a frame: the raw input, the Bayer buffer of the object, the output. -/
def capacity (p : DemosaicParams) (bayer : Nat) : Buffer → Nat
  | .input => 2 * (p.width.toNat * p.height.toNat)
  | .bayer => bayer
  | .output => 3 * (p.width.toNat * p.height.toNat)

section

variable {beyond : Nat → Byte} {p : DemosaicParams} {m : Memory Buffer 8} {a : Buffer × Int}

theorem mem_accesses_fillEdges (h : ∀ m, a ∈ accesses (fillEdges p.width.toNat p.height.toNat) m) :
    a ∈ accesses (processFrame beyond p) m :=
  mem_accesses_right fun _ _ => mem_accesses_right fun _ _ => h _

/-- The first row is copied from the second. -/
theorem secondRow_read (hw : p.width.toNat ≠ 0) :
    (Buffer.output, (3 * p.width.toNat : Int)) ∈ accesses (processFrame beyond p) m :=
  mem_accesses_fillEdges fun m => mem_accesses_left (mem_accesses_copy (.inl (by omega)) m)

/-- The last row is written to its end. -/
theorem lastByte_written (hw : p.width.toNat ≠ 0) :
    (Buffer.output, (p.height.toNat * (p.width.toNat * 3) - 1 : Int)) ∈
      accesses (processFrame beyond p) m := by
  have hrow : ((p.height.toNat : Int) - 1) * (p.width.toNat * 3) =
      p.height.toNat * (p.width.toNat * 3) - p.width.toNat * 3 := by
    rw [Int.sub_mul, Int.one_mul]
  exact mem_accesses_fillEdges fun m => mem_accesses_right fun _ m =>
    mem_accesses_left (mem_accesses_copy (.inr (by omega)) m)

/-- The last pixel of the first row is copied from the one before it. -/
theorem secondLastPixel_read (hh : p.height.toNat ≠ 0) :
    (Buffer.output, (((p.width.toNat : Int) - 2) * 3)) ∈ accesses (processFrame beyond p) m := by
  refine mem_accesses_fillEdges fun m => mem_accesses_right fun _ _ => mem_accesses_right fun _ _ =>
    mem_accesses_left (mem_accesses_loop (by omega) (decide_eq_true (by omega)) ?_)
  have hplace : ((p.width.toNat : Int) - 2) * 3 =
      0 * (p.width.toNat * 3) + ((p.width.toNat : Int) - 2) * 3 := by omega
  rw [hplace]
  refine mem_accesses_right fun _ _ => mem_accesses_right fun _ _ => mem_accesses_right fun _ _ => ?_
  exact mem_accesses_left List.mem_cons_self

/-- **Frames**: with a Bayer buffer of at least `w * h + 16` bytes. -/
theorem processFrame_inside_iff {bayer : Nat} (hw : p.width.toNat ≠ 0) (hh : p.height.toNat ≠ 0)
    (hbayer : p.width.toNat * p.height.toNat + 16 ≤ bayer) :
    (∀ a ∈ accesses (processFrame beyond p) m, Inside (capacity p bayer) a) ↔
      2 ≤ p.width.toNat ∧ 2 ≤ p.height.toNat ∧ 3 * (p.width.toNat * p.height.toNat) ≤ 2 ^ 31 := by
  constructor
  · intro hall
    have hpixel := hall _ (secondLastPixel_read hh)
    have hrow := hall _ (secondRow_read hw)
    have hlast := hall _ (lastByte_written hw)
    simp only [Inside, capacity] at hpixel hrow hlast
    refine ⟨by omega, ?_, ?_⟩
    · by_contra hlt
      have hone : p.height.toNat = 1 := by omega
      rw [hone] at hrow
      omega
    · rw [outputSize_eq] at hlast
      omega
  · rintro ⟨hw2, hh2, hint⟩
    refine accesses_within (processFrame_within beyond p hw2 hh2 ?_ ?_ ?_) m
    · exact covers_inside (by simp only [capacity]; omega) (by omega)
    · exact covers_inside (by simp only [capacity]; omega) (by omega)
    · exact covers_inside (by simp only [capacity]; omega) (by omega)

end

/-! ## The object -/

/-- A call on the object; `realloc` is what the allocator answers. -/
inductive DemosaicCall
  | setUp (params : DemosaicParams) (realloc : Option Mem)
  | frame (bayerInput rgbOutput : Option Mem)

def next (beyond : Nat → Byte) (d : DemosaicNEON) : DemosaicCall → DemosaicNEON
  | .setUp params realloc => ( d.initialize params realloc).2
  | .frame bayerInput rgbOutput => (d.process beyond bayerInput rgbOutput).1

/-- The constructor. -/
def fresh : DemosaicNEON := ⟨⟨0, 0, 0, 0, 0, 0⟩, false, none, 0⟩

/-- Without a buffer the recorded size is zero. -/
def Owned (d : DemosaicNEON) : Prop := d.mBayerBuf = none → d.mBayerBufSize = 0

theorem neededBytes (p : DemosaicParams) :
    (BitVec.ofNat 32 (p.width.toNat * p.height.toNat + 16)).toNat = p.width.toNat * p.height.toNat + 16 ∧
      (BitVec.ofNat 32 (p.width.toNat * p.height.toNat + 16) + 64).toNat =
        p.width.toNat * p.height.toNat + 80 := by
  have hw : p.width.toNat ≤ 65535 := by omega
  have hh : p.height.toNat ≤ 65535 := by omega
  have := Nat.mul_le_mul hw hh
  have h64 : (64 : BitVec 32).toNat = 64 := rfl
  rw [BitVec.toNat_add, BitVec.toNat_ofNat, h64]
  omega

/-- What `initialize` can do to the buffer: leave it, find it large enough, or replace it. -/
theorem initialize_cases (d : DemosaicNEON) (p : DemosaicParams) (realloc : Option Mem) :
    let r := d.initialize p realloc
    let size := p.width.toNat * p.height.toNat
    (r.1 = -1 ∧ r.2.mBayerBuf = d.mBayerBuf ∧ r.2.mBayerBufSize = d.mBayerBufSize) ∨
    (r.1 = 0 ∧ (p.width ≠ 0 ∧ p.height ≠ 0) ∧ (r.2.mParams = p ∧ r.2.mInitialized = true) ∧
      (r.2.mBayerBuf = d.mBayerBuf ∧ r.2.mBayerBufSize = d.mBayerBufSize ∧
          size + 16 ≤ d.mBayerBufSize.toNat ∨
        r.2.mBayerBuf.isSome ∧ r.2.mBayerBufSize.toNat = size + 80)) := by
  obtain ⟨hneeded, hallocated⟩ := neededBytes p
  unfold DemosaicNEON.initialize
  by_cases hz : p.width = 0 ∨ p.height = 0
  · rw [if_pos hz]
    exact .inl ⟨rfl, rfl, rfl⟩
  rw [if_neg hz]
  obtain ⟨hw, hh⟩ := not_or.mp hz
  dsimp only
  by_cases hgrow : d.mBayerBufSize < BitVec.ofNat 32 (p.width.toNat * p.height.toNat + 16)
  · rw [if_pos hgrow]
    cases realloc with
    | none => exact .inl ⟨rfl, rfl, rfl⟩
    | some buf => exact .inr ⟨rfl, ⟨hw, hh⟩, ⟨rfl, rfl⟩, .inr ⟨rfl, hallocated⟩⟩
  · rw [if_neg hgrow]
    rw [BitVec.lt_def, hneeded] at hgrow
    exact .inr ⟨rfl, ⟨hw, hh⟩, ⟨rfl, rfl⟩, .inl ⟨rfl, rfl, by omega⟩⟩

theorem next_owned (beyond : Nat → Byte) {d : DemosaicNEON} (hd : Owned d) (c : DemosaicCall) :
    Owned (next beyond d c) := by
  cases c with
  | setUp p realloc =>
    intro hnone
    simp only [next] at hnone ⊢
    rcases initialize_cases d p realloc with
      ⟨-, hbuf, hsize⟩ | ⟨-, -, -, ⟨hbuf, hsize, -⟩ | ⟨hbuf, -⟩⟩
    · rw [hsize]
      exact hd (hbuf ▸ hnone)
    · rw [hsize]
      exact hd (hbuf ▸ hnone)
    · rw [hnone] at hbuf
      cases hbuf
  | frame inp rgb =>
    simp only [next, DemosaicNEON.process]
    split
    · intro hnone
      cases hnone
    · exact hd

theorem calls_owned (beyond : Nat → Byte) (cs : List DemosaicCall) {d : DemosaicNEON} (hd : Owned d) :
    Owned (cs.foldl (next beyond) d) := by
  induction cs generalizing d with
  | nil => exact hd
  | cons c cs ih => exact ih (next_owned beyond hd c)

/-- Accepted parameters: the object has them, and a buffer that is large enough. -/
theorem accepted_buffer {d : DemosaicNEON} (hd : Owned d) {p : DemosaicParams} {realloc : Option Mem}
    (haccept : ( d.initialize p realloc).1 = 0) :
    let d' := ( d.initialize p realloc).2
    (p.width.toNat ≠ 0 ∧ p.height.toNat ≠ 0) ∧ (d'.mParams = p ∧ d'.mInitialized = true) ∧
      d'.mBayerBuf.isSome ∧ p.width.toNat * p.height.toNat + 16 ≤ d'.mBayerBufSize.toNat := by
  have hpos {x : BitVec 16} (hx : x ≠ 0) : x.toNat ≠ 0 := fun h0 => hx (BitVec.eq_of_toNat_eq h0)
  rcases initialize_cases d p realloc with ⟨hfail, -⟩ | ⟨-, ⟨hw, hh⟩, hparams, hbuf⟩
  · rw [haccept] at hfail
    cases hfail
  · refine ⟨⟨hpos hw, hpos hh⟩, hparams, ?_⟩
    rcases hbuf with ⟨hsame, hsize, hlarge⟩ | ⟨hsome, hsize⟩
    · rw [hsame, hsize]
      refine ⟨?_, hlarge⟩
      rw [Option.isSome_iff_ne_none]
      intro hnone
      rw [hd hnone] at hlarge
      exact absurd hlarge (by simp)
    · exact ⟨hsome, by omega⟩

/-- **The demosaic stays in its buffers** for the parameters that `initialize` accepted,
whatever was called before, exactly when there are two columns and two rows and the output's
indices are `int`s.  The last is so for any three buffers that fit together in the 32-bit
address space: they are `6 * w * h + 16` bytes at least. -/
theorem process_inBounds_iff (beyond : Nat → Byte) (earlier : List DemosaicCall) (p : DemosaicParams)
    (realloc : Option Mem)
    (haccept : ( DemosaicNEON.initialize (earlier.foldl (next beyond) fresh) p realloc).1 = 0)
    (m : Memory Buffer 8) :
    let d := ( DemosaicNEON.initialize (earlier.foldl (next beyond) fresh) p realloc).2
    (∀ a ∈ accesses (process beyond d) m, Inside (capacity p d.mBayerBufSize.toNat) a) ↔
      2 ≤ p.width.toNat ∧ 2 ≤ p.height.toNat ∧ 3 * (p.width.toNat * p.height.toNat) ≤ 2 ^ 31 := by
  intro d
  obtain ⟨⟨hw, hh⟩, ⟨hparams, hinit⟩, hsome, hsize⟩ :=
    accepted_buffer (calls_owned beyond earlier fun _ => rfl) haccept
  obtain ⟨buf, hbuf⟩ := Option.isSome_iff_exists.mp hsome
  have hprocess : process beyond d = processFrame beyond p := by
    simp only [process, d, hinit, hbuf, hparams]
  rw [hprocess]
  exact processFrame_inside_iff hw hh hsize

/-- The object set up for a frame of the given size. -/
def setUpFor (width height : BitVec 16) : DemosaicNEON :=
  ( DemosaicNEON.initialize fresh ⟨width, height, 0, 0, 0, 0⟩ (some fun _ => 0)).2

theorem twoByTwo_inBounds :
    ( DemosaicNEON.initialize fresh ⟨2, 2, 0, 0, 0, 0⟩ (some fun _ => 0)).1 = 0 ∧
      ∀ a ∈ accesses (process (fun _ => 0) (setUpFor 2 2)) fun _ _ => 0,
        Inside (capacity ⟨2, 2, 0, 0, 0, 0⟩ (setUpFor 2 2).mBayerBufSize.toNat) a :=
  ⟨rfl, (process_inBounds_iff _ [] _ _ rfl _).mpr (by decide)⟩

/-- A single column is accepted, and its last pixel is copied from three bytes in front of
the output. -/
theorem singleColumn_outOfBounds :
    ( DemosaicNEON.initialize fresh ⟨1, 4, 0, 0, 0, 0⟩ (some fun _ => 0)).1 = 0 ∧
      ¬ ∀ a ∈ accesses (process (fun _ => 0) (setUpFor 1 4)) fun _ _ => 0,
        Inside (capacity ⟨1, 4, 0, 0, 0, 0⟩ (setUpFor 1 4).mBayerBufSize.toNat) a := by
  refine ⟨rfl, fun hall => ?_⟩
  have hread : (Buffer.output, (-3 : Int)) ∈ accesses (process (fun _ => 0) (setUpFor 1 4)) fun _ _ => 0 :=
    secondLastPixel_read (p := ⟨1, 4, 0, 0, 0, 0⟩) (by decide)
  exact absurd (hall _ hread).1 (by decide)

end MochaHal.DemosaicAccess
