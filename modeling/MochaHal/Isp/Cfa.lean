import MochaHal.Isp.DemosaicFrame

/-! The colour filter array.  `cfaTable` is the arrangement that `DemosaicNEON.h`
documents for each `bayerPattern`; the law of a demosaic is that an interior pixel
keeps its own sample, lowered by the black level, in its own channel and computes each
other channel from neighbouring samples of that colour.  `process_cfa_iff` says when
`process` obeys it: `pos_color` matches the documented arrangement in its last row only,
a vector batch breaks the law at every pattern, and so does a black level that the
conversion cuts to eight bits. -/

namespace MochaHal.Demosaic
open MochaHal.Loop MochaHal.Neon

/-! ## The law -/

inductive Colour
  | red
  | green
  | blue
  deriving DecidableEq, Repr

/-- The place of the colour among the three bytes of a pixel. -/
def Colour.chan : Colour → Int
  | .red => 0
  | .green => 1
  | .blue => 2

/-- The documented 2x2 tiles by rows: GBRG, GRBG, BGGR, RGGB. -/
def cfaTable : List (List Colour) :=
  [[.green, .blue, .red, .green], [.green, .red, .blue, .green],
   [.blue, .green, .green, .red], [.red, .green, .green, .blue]]

/-- The place of a position in its tile. -/
def tilePlace (p : DemosaicParams) (x y : Int) : Nat :=
  ((y + p.offset_y.toNat) % 2 * 2 + (x + p.offset_x.toNat) % 2).toNat

/-- The colour that the pattern assigns to pixel `(x, y)`. -/
def cfaColour (p : DemosaicParams) (x y : Int) : Colour :=
  (cfaTable.getD p.bayerPattern.toNat []).getD (tilePlace p x y) .green

/-- A call of `process`: the Bayer input and what the two buffers held before. -/
structure FrameInput where
  inp : Mem
  buf : Mem
  rgb : Mem
  size : BitVec 32

section Law
variable (beyond : Nat → Byte) (p : DemosaicParams) (f : FrameInput)

/-- The samples of the frame have ten bits. -/
def TenBit : Prop :=
  ∀ i, 0 ≤ i → i < (p.width.toNat : Int) * p.height.toNat → (sample16 f.inp i).toNat ≤ 1023

/-- The 8-bit sample of a pixel, lowered by the black level. -/
def sampleAt (x y : Int) : Nat :=
  ((sample16 f.inp (y * p.width.toNat + x)).toNat >>> 2) - p.blackLevel.toNat

/-- The samples that `process` works with. -/
def samples : Mem :=
  raw10To8bit f.inp f.buf ((p.width.toNat : Int) * p.height.toNat) p.blackLevel

/-- The byte that `process` leaves in one channel of pixel `(x, y)`. -/
def chanAt (x y : Int) (c : Colour) : Option Byte :=
  ((ready p f.buf f.size).process beyond (some f.inp) (some f.rgb)).2.map fun m =>
    m (y * ((p.width.toNat : Int) * 3) + (x * 3 + c.chan))

def Interior (x y : Int) : Prop :=
  1 ≤ x ∧ x ≤ (p.width.toNat : Int) - 2 ∧ 1 ≤ y ∧ y ≤ (p.height.toNat : Int) - 2

/-- `(x', y')` is one of the eight pixels around `(x, y)`. -/
def Neighbour (x y x' y' : Int) : Prop :=
  x - 1 ≤ x' ∧ x' ≤ x + 1 ∧ y - 1 ≤ y' ∧ y' ≤ y + 1 ∧ (x' ≠ x ∨ y' ≠ y)

/-- Channel `c` of pixel `(x, y)` is a function of the neighbouring samples of colour `c`. -/
def FromNeighbours (x y : Int) (c : Colour) : Prop :=
  ∀ f f' : FrameInput, TenBit p f → TenBit p f' →
    (∀ x' y', Neighbour x y x' y' → cfaColour p x' y' = c →
      sampleAt p f x' y' = sampleAt p f' x' y') →
    chanAt beyond p f x y c = chanAt beyond p f' x y c

/-- **The CFA law** of one configuration. -/
def CfaLaw : Prop :=
  ∀ x y, Interior p x y →
    (∀ f, TenBit p f →
      (chanAt beyond p f x y (cfaColour p x y)).map BitVec.toNat = some (sampleAt p f x y)) ∧
    ∀ c, c ≠ cfaColour p x y → FromNeighbours beyond p x y c

end Law

/-! ## Frames with given samples -/

/-- A 10-bit frame with the given 8-bit samples. -/
def encode10 (s : Mem) : Mem := fun k =>
  if k % 2 = 0 then BitVec.ofNat 8 (4 * (s (k / 2)).toNat)
  else BitVec.ofNat 8 (4 * (s (k / 2)).toNat / 256)

theorem sample16_encode10 (s : Mem) (i : Int) :
    (sample16 (encode10 s) i).toNat = 4 * (s i).toNat := by
  have hs := (s i).isLt
  have hlo : encode10 s (2 * i) = BitVec.ofNat 8 (4 * (s i).toNat) := by
    simp only [encode10]
    rw [if_pos (by omega), show 2 * i / 2 = i by omega]
  have hhi : encode10 s (2 * i + 1) = BitVec.ofNat 8 (4 * (s i).toNat / 256) := by
    simp only [encode10]
    rw [if_neg (by omega), show (2 * i + 1) / 2 = i by omega]
  rw [sample16, hlo, hhi, BitVec.toNat_append, BitVec.toNat_ofNat, BitVec.toNat_ofNat]
  rw [← Nat.shiftLeft_add_eq_or_of_lt (by omega), Nat.shiftLeft_eq]
  omega

/-- What the conversion makes of ten bits: a block subtracts the low byte of the level. -/
theorem samples_toNat {p : DemosaicParams} {f : FrameInput} (hf : TenBit p f) {i : Int} (h0 : 0 ≤ i)
    (h1 : i < (p.width.toNat : Int) * p.height.toNat) : (samples p f i).toNat =
      if 16 * (i / 16) + 16 ≤ (p.width.toNat : Int) * p.height.toNat then
        (sample16 f.inp i).toNat / 4 - p.blackLevel.toNat % 256
      else (sample16 f.inp i).toNat / 4 - p.blackLevel.toNat := by
  have hv := hf i h0 h1
  rw [samples, raw10To8bit_spec f.inp f.buf _ p.blackLevel (by omega) i, if_pos ⟨h0, h1⟩]
  by_cases hblock : 16 * (i / 16) + 16 ≤ (p.width.toNat : Int) * p.height.toNat
  · rw [if_pos hblock, raw10Byte_block hblock]
    omega
  · rw [if_neg hblock, raw10Byte_tail hblock hv]

/-- No sample comes out above 0. -/
def Hidden (p : DemosaicParams) : Prop :=
  p.blackLevel.toNat % 256 = 255 ∨ p.width.toNat * p.height.toNat < 16 ∧ 255 ≤ p.blackLevel.toNat

/-- The black level has eight bits, or the frame is too small for a block. -/
def LevelKept (p : DemosaicParams) : Prop :=
  p.blackLevel.toNat < 256 ∨ p.width.toNat * p.height.toNat < 16

theorem samples_exact {p : DemosaicParams} (hlevel : LevelKept p) {f : FrameInput} (hf : TenBit p f)
    {i : Int} (h0 : 0 ≤ i) (h1 : i < (p.width.toNat : Int) * p.height.toNat) :
    (samples p f i).toNat = ((sample16 f.inp i).toNat >>> 2) - p.blackLevel.toNat := by
  rw [samples_toNat hf h0 h1, Nat.shiftRight_eq_div_pow]
  rcases hlevel with hbl | hsmall
  · rw [Nat.mod_eq_of_lt hbl, ite_self]
  · have hsmall : (p.width.toNat : Int) * p.height.toNat < 16 := by exact_mod_cast hsmall
    rw [if_neg (by omega)]

theorem samples_hidden {p : DemosaicParams} (hp : Hidden p) {f : FrameInput} (hf : TenBit p f)
    {i : Int} (h0 : 0 ≤ i) (h1 : i < (p.width.toNat : Int) * p.height.toNat) : samples p f i = 0 := by
  have hv := hf i h0 h1
  apply BitVec.eq_of_toNat_eq
  rw [samples_toNat hf h0 h1]
  show _ = 0
  rcases hp with h255 | ⟨hsmall, hbl⟩
  · split <;> omega
  · have hsmall : (p.width.toNat : Int) * p.height.toNat < 16 := by exact_mod_cast hsmall
    rw [if_neg (by omega)]
    omega

/-- A call whose samples are `s`, where the black level leaves room for them. -/
def frameOf (p : DemosaicParams) (s : Mem) : FrameInput :=
  ⟨encode10 fun i => s i + p.blackLevel.setWidth 8, fun _ => 0, fun _ => 0, 0⟩

theorem frameOf_tenBit (p : DemosaicParams) (s : Mem) : TenBit p (frameOf p s) := by
  intro i _ _
  rw [frameOf, sample16_encode10]
  omega

/-- The brightest sample that a black level leaves. -/
def top (p : DemosaicParams) : Byte := BitVec.ofNat 8 (255 - p.blackLevel.toNat)

theorem top_toNat (p : DemosaicParams) : (top p).toNat = 255 - p.blackLevel.toNat := by
  rw [top, BitVec.toNat_ofNat]
  omega

theorem sample16_frameOf {p : DemosaicParams} (hbl : p.blackLevel.toNat < 255) {s : Mem} {i : Int}
    (hs : s i ≤ top p) :
    (sample16 (frameOf p s).inp i).toNat = 4 * ((s i).toNat + p.blackLevel.toNat) := by
  have hle : (s i).toNat ≤ 255 - p.blackLevel.toNat := top_toNat p ▸ BitVec.le_def.mp hs
  rw [frameOf, sample16_encode10, BitVec.toNat_add, BitVec.toNat_setWidth]
  omega

theorem samples_frameOf {p : DemosaicParams} (hbl : p.blackLevel.toNat < 255) {s : Mem} {i : Int}
    (hs : s i ≤ top p) (h0 : 0 ≤ i) (h1 : i < (p.width.toNat : Int) * p.height.toNat) :
    samples p (frameOf p s) i = s i := by
  apply BitVec.eq_of_toNat_eq
  rw [samples_exact (.inl (by omega)) (frameOf_tenBit p s) h0 h1, sample16_frameOf hbl hs,
    Nat.shiftRight_eq_div_pow]
  omega

theorem sampleAt_frameOf {p : DemosaicParams} (hbl : p.blackLevel.toNat < 255) {s : Mem}
    (hs : ∀ i, s i ≤ top p) (x y : Int) :
    sampleAt p (frameOf p s) x y = (s (y * p.width.toNat + x)).toNat := by
  rw [sampleAt, sample16_frameOf hbl (hs _), Nat.shiftRight_eq_div_pow]
  omega

/-! ## Interior pixels -/

section Pixels
variable {beyond : Nat → Byte} {p : DemosaicParams} {x y : Int}

/-- The sample rows around row `y`. -/
def sampleRow (p : DemosaicParams) (s : Mem) (y : Int) : Mem := fun i => s (y * p.width.toNat + i)

/-- The pixel computed for column `x` of row `y` from the samples `s`. -/
def pixelOf (beyond : Nat → Byte) (p : DemosaicParams) (s : Mem) (x y : Int) : Rgb :=
  columnPixel (sampleRow p s y) (sampleRow p s (y - 1)) (sampleRow p s (y + 1)) p.width.toNat
    (rowTypes beyond p y).1 (rowTypes beyond p y).2 x

theorem Colour.chan_bounds (c : Colour) : 0 ≤ c.chan ∧ c.chan < 3 := by
  cases c <;> decide

theorem chanAt_eq (hw : 5 ≤ p.width.toNat) (hodd : p.width.toNat % 2 = 1) (hh : 3 ≤ p.height.toNat)
    (hin : Interior p x y) (f : FrameInput) (c : Colour) :
    chanAt beyond p f x y c = some ((pixelOf beyond p (samples p f) x y).chan c.chan) := by
  obtain ⟨hx1, hx2, hy1, hy2⟩ := hin
  have hc := c.chan_bounds
  have hcol : colSource p.width.toNat (x * 3 + c.chan) = x * 3 + c.chan := by
    unfold colSource
    rw [if_neg (by omega), if_neg (by omega)]
  have hrow : rowSource p.height.toNat y = y := by
    unfold rowSource
    rw [if_neg (by omega), if_neg (by omega)]
  have hwritten : written p.width.toNat = p.width.toNat - 1 := by
    unfold written
    rw [if_neg (by omega), if_pos (by omega)]
  have hspec := processFrame_spec beyond p (samples p f) f.rgb (by omega) (by omega) y
    (x * 3 + c.chan) (by omega) (by omega) (by omega) (by omega)
  rw [hcol, hrow, if_pos (by omega)] at hspec
  rw [chanAt, process_ready, Option.map_some]
  refine congrArg some (hspec.trans ?_)
  rw [frameByte, show (x * 3 + c.chan) / 3 = x by omega, show (x * 3 + c.chan) % 3 = c.chan by omega]
  rfl

theorem frame_index (hx : 0 ≤ x ∧ x < p.width.toNat) (hy : 0 ≤ y ∧ y < p.height.toNat) :
    0 ≤ y * p.width.toNat + x ∧ y * p.width.toNat + x < (p.width.toNat : Int) * p.height.toNat := by
  constructor
  · nlinarith
  · nlinarith

/-- The samples of a frame decide its pixels. -/
theorem chanAt_of_samples (hw : 5 ≤ p.width.toNat) (hodd : p.width.toNat % 2 = 1)
    (hh : 3 ≤ p.height.toNat) (hin : Interior p x y) {f : FrameInput} {s : Mem}
    (hs : ∀ i, 0 ≤ i → i < (p.width.toNat : Int) * p.height.toNat → samples p f i = s i) (c : Colour) :
    chanAt beyond p f x y c = some ((pixelOf beyond p s x y).chan c.chan) := by
  have hrow (y : Int) (hy : 0 ≤ y ∧ y < p.height.toNat) (i : Int) (h0 : 0 ≤ i) (h1 : i < p.width.toNat) :
      sampleRow p (samples p f) y i = sampleRow p s y i := by
    have hidx := frame_index (p := p) ⟨h0, h1⟩ hy
    exact hs _ hidx.1 hidx.2
  rw [chanAt_eq hw hodd hh hin]
  obtain ⟨hx1, hx2, hy1, hy2⟩ := hin
  have hpix : pixelOf beyond p (samples p f) x y = pixelOf beyond p s x y := by
    refine columnPixel_congr _ _ (by omega) (hrow y (by omega)) (hrow (y - 1) (by omega))
      (hrow (y + 1) (by omega)) (by omega) ?_
    unfold written
    rw [if_neg (by omega), if_pos (by omega)]
    omega
  rw [hpix]

/-- The colour type of a pixel is the entry of `pos_color` at its place in the tile. -/
theorem columnType_rowTypes : columnType (rowTypes beyond p y).1 (rowTypes beyond p y).2 x =
    posColor beyond p.bayerPattern.toNat (tilePlace p x y) := by
  simp only [columnType, rowTypes, tilePlace]
  split
  · congr 1
    omega
  · congr 1
    omega

theorem pixelOf_scalar (s : Mem) (hx : x = 1 ∨ 2 ≤ x ∧ p.width.toNat < 12) :
    pixelOf beyond p s x y = scalarPixel (sampleRow p s y) (sampleRow p s (y - 1))
      (sampleRow p s (y + 1)) (posColor beyond p.bayerPattern.toNat (tilePlace p x y)) x := by
  rw [pixelOf, ← columnType_rowTypes]
  rcases hx with rfl | ⟨h2, h12⟩
  · simp [columnPixel, columnType]
  · exact columnPixel_scalar _ _ _ _ _ _ h2 (by unfold blockStart; omega)

theorem clamp_px (row : Mem) (i : Int) : clamp (px row i) = row i := by
  apply BitVec.eq_of_toNat_eq
  rw [clamp_toNat _ (px_lt row i)]
  rfl

end Pixels

/-! ## RGGB without batches -/

section Rggb
variable {beyond : Nat → Byte} {p : DemosaicParams} {x y : Int}

theorem tilePlace_eq (p : DemosaicParams) (x y : Int) : tilePlace p x y =
    if (y + p.offset_y.toNat) % 2 = 0 then
      if (x + p.offset_x.toNat) % 2 = 0 then 0 else 1
    else if (x + p.offset_x.toNat) % 2 = 0 then 2 else 3 := by
  unfold tilePlace
  split
  · split
    · omega
    · omega
  · split
    · omega
    · omega

theorem cfaColour_rggb (hpat : p.bayerPattern = 3) (x y : Int) : cfaColour p x y =
    if (y + p.offset_y.toNat) % 2 = 0 then
      if (x + p.offset_x.toNat) % 2 = 0 then .red else .green
    else if (x + p.offset_x.toNat) % 2 = 0 then .green else .blue := by
  have h3 : (3 : Byte).toNat = 3 := rfl
  rw [cfaColour, hpat, h3, tilePlace_eq]
  split
  · split
    · rfl
    · rfl
  · split
    · rfl
    · rfl

theorem posColor_rggb (hpat : p.bayerPattern = 3) (x y : Int) :
    posColor beyond p.bayerPattern.toNat (tilePlace p x y) =
    if (y + p.offset_y.toNat) % 2 = 0 then
      if (x + p.offset_x.toNat) % 2 = 0 then 0 else 1
    else if (x + p.offset_x.toNat) % 2 = 0 then 2 else 3 := by
  have h3 : (3 : Byte).toNat = 3 := rfl
  rw [hpat, h3, tilePlace_eq]
  split
  · split
    · rfl
    · rfl
  · split
    · rfl
    · rfl

theorem cfaColour_period_x {x y : Int} : cfaColour p (x + 1) y = cfaColour p (x - 1) y := by
  have hx : (x + 1 + p.offset_x.toNat) % 2 = (x - 1 + p.offset_x.toNat) % 2 := by omega
  rw [cfaColour, cfaColour, tilePlace, tilePlace, hx]

theorem cfaColour_period_y {x y : Int} : cfaColour p x (y + 1) = cfaColour p x (y - 1) := by
  have hy : (y + 1 + p.offset_y.toNat) % 2 = (y - 1 + p.offset_y.toNat) % 2 := by omega
  rw [cfaColour, cfaColour, tilePlace, tilePlace, hy]

/-- The scalar formula at an RGGB position keeps the sample and averages the
neighbours of each other colour. -/
theorem scalar_own (hpat : p.bayerPattern = 3) (row up dn : Mem) (x y : Int) :
    (scalarPixel row up dn (posColor beyond p.bayerPattern.toNat (tilePlace p x y)) x).chan
      (cfaColour p x y).chan = row x := by
  rw [posColor_rggb hpat, cfaColour_rggb hpat]
  split
  · split
    · simp [scalarPixel, Colour.chan, Rgb.chan, clamp_px]
    · simp [scalarPixel, Colour.chan, Rgb.chan, clamp_px]
  · split
    · simp [scalarPixel, Colour.chan, Rgb.chan, clamp_px]
    · simp [scalarPixel, Colour.chan, Rgb.chan, clamp_px]

/-- Two pictures with the same samples of one colour around a pixel. -/
def SameAround (p : DemosaicParams) (s s' : Mem) (c : Colour) (x y : Int) : Prop :=
  ∀ x' y', Neighbour x y x' y' → cfaColour p x' y' = c → sampleRow p s y' x' = sampleRow p s' y' x'

section Around
variable {s s' : Mem} {c : Colour}

theorem SameAround.px_eq (h : SameAround p s s' c x y) {i j : Int} (hn : Neighbour x y i j)
    (hcol : cfaColour p i j = c) : px (sampleRow p s j) i = px (sampleRow p s' j) i :=
  congrArg BitVec.toNat (h i j hn hcol)

theorem SameAround.horizontal (h : SameAround p s s' c x y) (hcol : cfaColour p (x + 1) y = c) :
    px (sampleRow p s y) (x - 1) = px (sampleRow p s' y) (x - 1) ∧
    px (sampleRow p s y) (x + 1) = px (sampleRow p s' y) (x + 1) := by
  constructor
  · exact h.px_eq (by unfold Neighbour; omega) (cfaColour_period_x ▸ hcol)
  · exact h.px_eq (by unfold Neighbour; omega) hcol

theorem SameAround.vertical (h : SameAround p s s' c x y) (hcol : cfaColour p x (y + 1) = c) :
    px (sampleRow p s (y - 1)) x = px (sampleRow p s' (y - 1)) x ∧
    px (sampleRow p s (y + 1)) x = px (sampleRow p s' (y + 1)) x := by
  constructor
  · exact h.px_eq (by unfold Neighbour; omega) (cfaColour_period_y ▸ hcol)
  · exact h.px_eq (by unfold Neighbour; omega) hcol

theorem SameAround.diagonal (h : SameAround p s s' c x y)
    (hcol : cfaColour p (x + 1) (y + 1) = c) :
    px (sampleRow p s (y - 1)) (x - 1) = px (sampleRow p s' (y - 1)) (x - 1) ∧
    px (sampleRow p s (y - 1)) (x + 1) = px (sampleRow p s' (y - 1)) (x + 1) ∧
    px (sampleRow p s (y + 1)) (x - 1) = px (sampleRow p s' (y + 1)) (x - 1) ∧
    px (sampleRow p s (y + 1)) (x + 1) = px (sampleRow p s' (y + 1)) (x + 1) := by
  have hup : cfaColour p (x + 1) (y - 1) = c := cfaColour_period_y ▸ hcol
  have hleft : cfaColour p (x - 1) (y + 1) = c := cfaColour_period_x ▸ hcol
  refine ⟨h.px_eq ?_ (cfaColour_period_x ▸ hup), h.px_eq ?_ hup, h.px_eq ?_ hleft,
    h.px_eq ?_ hcol⟩
  all_goals
    unfold Neighbour
    omega

theorem scalar_others (hpat : p.bayerPattern = 3) (hc : c ≠ cfaColour p x y)
    (h : SameAround p s s' c x y) :
    (scalarPixel (sampleRow p s y) (sampleRow p s (y - 1)) (sampleRow p s (y + 1))
      (posColor beyond p.bayerPattern.toNat (tilePlace p x y)) x).chan c.chan =
    (scalarPixel (sampleRow p s' y) (sampleRow p s' (y - 1)) (sampleRow p s' (y + 1))
      (posColor beyond p.bayerPattern.toNat (tilePlace p x y)) x).chan c.chan := by
  have hhor := h.horizontal
  have hver := h.vertical
  have hdiag := h.diagonal
  rw [posColor_rggb hpat]
  -- one case for each position of the tile: which neighbours have which colour
  rcases Int.emod_two_eq_zero_or_one (y + p.offset_y.toNat) with hy | hy
  · have hy' : (y + 1 + p.offset_y.toNat) % 2 = 1 := by omega
    rcases Int.emod_two_eq_zero_or_one (x + p.offset_x.toNat) with hx | hx
    · have hx' : (x + 1 + p.offset_x.toNat) % 2 = 1 := by omega
      simp only [cfaColour_rggb hpat, hx, hy, hx', hy', one_ne_zero, ↓reduceIte] at *
      cases c with
      | red => exact absurd rfl hc
      | green => simp [scalarPixel, Colour.chan, Rgb.chan, hhor, hver]
      | blue => simp [scalarPixel, Colour.chan, Rgb.chan, hdiag]
    · have hx' : (x + 1 + p.offset_x.toNat) % 2 = 0 := by omega
      simp only [cfaColour_rggb hpat, hx, hy, hx', hy', one_ne_zero, ↓reduceIte] at *
      cases c with
      | red => simp [scalarPixel, Colour.chan, Rgb.chan, hhor]
      | green => exact absurd rfl hc
      | blue => simp [scalarPixel, Colour.chan, Rgb.chan, hver]
  · have hy' : (y + 1 + p.offset_y.toNat) % 2 = 0 := by omega
    rcases Int.emod_two_eq_zero_or_one (x + p.offset_x.toNat) with hx | hx
    · have hx' : (x + 1 + p.offset_x.toNat) % 2 = 1 := by omega
      simp only [cfaColour_rggb hpat, hx, hy, hx', hy', one_ne_zero, ↓reduceIte] at *
      cases c with
      | red => simp [scalarPixel, Colour.chan, Rgb.chan, hver]
      | green => exact absurd rfl hc
      | blue => simp [scalarPixel, Colour.chan, Rgb.chan, hhor]
    · have hx' : (x + 1 + p.offset_x.toNat) % 2 = 0 := by omega
      simp only [cfaColour_rggb hpat, hx, hy, hx', hy', one_ne_zero, ↓reduceIte] at *
      cases c with
      | red => simp [scalarPixel, Colour.chan, Rgb.chan, hdiag]
      | green => simp [scalarPixel, Colour.chan, Rgb.chan, hhor, hver]
      | blue => exact absurd rfl hc

end Around

theorem cfaLaw_rggb (hpat : p.bayerPattern = 3) (hw : 5 ≤ p.width.toNat)
    (hodd : p.width.toNat % 2 = 1) (hh : 3 ≤ p.height.toNat) (hnarrow : p.width.toNat < 12)
    (hlevel : LevelKept p) : CfaLaw beyond p := by
  intro x y hin
  have hx : x = 1 ∨ 2 ≤ x ∧ p.width.toNat < 12 := by
    have := hin.1
    omega
  have hexact (f : FrameInput) (hf : TenBit p f) {x' y' : Int} (hx' : 0 ≤ x' ∧ x' < p.width.toNat)
      (hy' : 0 ≤ y' ∧ y' < p.height.toNat) :
      (sampleRow p (samples p f) y' x').toNat = sampleAt p f x' y' := by
    have hidx := frame_index hx' hy'
    exact samples_exact hlevel hf hidx.1 hidx.2
  constructor
  · intro f hf
    rw [chanAt_eq hw hodd hh hin, pixelOf_scalar _ hx, scalar_own hpat, Option.map_some]
    obtain ⟨hx1, hx2, hy1, hy2⟩ := hin
    exact congrArg some (hexact f hf (by omega) (by omega))
  · intro c hc f f' hf hf' h
    rw [chanAt_eq hw hodd hh hin, chanAt_eq hw hodd hh hin, pixelOf_scalar _ hx,
      pixelOf_scalar _ hx]
    refine congrArg some (scalar_others hpat hc fun x' y' hn hcol => ?_)
    obtain ⟨hx1, hx2, hy1, hy2⟩ := hin
    obtain ⟨hn1, hn2, hn3, hn4, -⟩ := id hn
    apply BitVec.eq_of_toNat_eq
    rw [hexact f hf (by omega) (by omega), hexact f' hf' (by omega) (by omega)]
    exact h x' y' hn hcol

end Rggb

/-! ## Dark frames -/

section Dark
variable {beyond : Nat → Byte} {p : DemosaicParams} {x y : Int}

theorem scalarPixel_dark {row up dn : Mem} {x : Int} (hr : ∀ i, row i = 0) (hu : ∀ i, up i = 0)
    (hd : ∀ i, dn i = 0) (type : Nat) : scalarPixel row up dn type x = ⟨0, 0, 0⟩ := by
  have h0 : clamp 0 = 0 := by decide
  match type with
  | 0 => simp [scalarPixel, px, hr, hu, hd, h0]
  | 1 => simp [scalarPixel, px, hr, hu, hd, h0]
  | 2 => simp [scalarPixel, px, hr, hu, hd, h0]
  | _ + 3 => simp [scalarPixel, px, hr, hu, hd, h0]

theorem batchQuads_dark (ev od : Nat) (x : Int) (i : Fin 4) :
    (batchQuads (fun _ => 0) (fun _ => 0) (fun _ => 0) ev od x).1.pixel i = ⟨0, 0, 0⟩ ∧
      (batchQuads (fun _ => 0) (fun _ => 0) (fun _ => 0) ev od x).2.pixel i = ⟨0, 0, 0⟩ := by
  have hzero (c : Int) : px (fun _ => 0#8) c = 0 := rfl
  have heven : EvenAgrees (fun _ => 0) (fun _ => 0) (fun _ => 0) ev x i := by
    match ev with
    | 0 => trivial
    | 1 => simp [EvenAgrees, hzero]
    | 2 => simp [EvenAgrees, hzero]
    | _ + 3 => trivial
  have hodd : OddAgrees (fun _ => 0) (fun _ => 0) (fun _ => 0) od x i := by
    match od with
    | 0 => simp [OddAgrees, hzero]
    | 1 => simp [OddAgrees, hzero]
    | 2 => simp [OddAgrees, hzero]
    | _ + 3 => simp [OddAgrees, hzero]
  constructor
  · rw [(even_lane_iff _ _ _ x i ev od).mpr heven]
    exact scalarPixel_dark (fun _ => rfl) (fun _ => rfl) (fun _ => rfl) ev
  · rw [(odd_lane_iff _ _ _ x i ev od).mpr hodd]
    exact scalarPixel_dark (fun _ => rfl) (fun _ => rfl) (fun _ => rfl) od

theorem pixelOf_dark (beyond : Nat → Byte) (p : DemosaicParams) (hx : 1 ≤ x) (y : Int) :
    pixelOf beyond p (fun _ => 0) x y = ⟨0, 0, 0⟩ := by
  have hscalar (type : Nat) (x : Int) :
      scalarPixel (fun _ => 0) (fun _ => 0) (fun _ => 0) type x = ⟨0, 0, 0⟩ :=
    scalarPixel_dark (fun _ => rfl) (fun _ => rfl) (fun _ => rfl) type
  show columnPixel (fun _ => 0) (fun _ => 0) (fun _ => 0) _ _ _ x = _
  rw [columnPixel, if_neg (by omega), hscalar, hscalar, batchPixel]
  simp only [batchQuads_dark, ite_self]

theorem chanAt_dark (hw : 5 ≤ p.width.toNat) (hodd : p.width.toNat % 2 = 1) (hh : 3 ≤ p.height.toNat)
    (hin : Interior p x y) {f : FrameInput}
    (hs : ∀ i, 0 ≤ i → i < (p.width.toNat : Int) * p.height.toNat → samples p f i = 0) (c : Colour) :
    chanAt beyond p f x y c = some 0 := by
  rw [chanAt_of_samples (s := fun _ => 0) hw hodd hh hin hs, pixelOf_dark _ _ hin.1]
  cases c <;> rfl

/-- Where no sample comes out above 0 every picture is dark, as it should be. -/
theorem cfaLaw_hidden (hp : Hidden p) (hw : 5 ≤ p.width.toNat) (hodd : p.width.toNat % 2 = 1)
    (hh : 3 ≤ p.height.toNat) : CfaLaw beyond p := by
  intro x y hin
  have hdark (f : FrameInput) (hf : TenBit p f) (c : Colour) : chanAt beyond p f x y c = some 0 :=
    chanAt_dark hw hodd hh hin (fun i h0 h1 => samples_hidden hp hf h0 h1) c
  constructor
  · intro f hf
    obtain ⟨hx1, hx2, hy1, hy2⟩ := hin
    have hidx := frame_index (p := p) (x := x) (y := y) (by omega) (by omega)
    have hv := hf _ hidx.1 hidx.2
    have hbl : 255 ≤ p.blackLevel.toNat := by
      rcases hp with h255 | ⟨-, hbl⟩
      · omega
      · exact hbl
    have hzero : sampleAt p f x y = 0 := by
      rw [sampleAt, Nat.shiftRight_eq_div_pow]
      omega
    rw [hdark f hf, hzero]
    rfl
  · intro c _ f f' hf hf' _
    rw [hdark f hf, hdark f' hf']

/-! ### A black level of 256 and more -/

/-- The channel of its colour type keeps the sample. -/
theorem scalarPixel_own (row up dn : Mem) (type : Nat) (x : Int) :
    ∃ c : Colour, (scalarPixel row up dn type x).chan c.chan = row x := by
  match type with
  | 0 => exact ⟨.red, clamp_px row x⟩
  | 1 => exact ⟨.green, clamp_px row x⟩
  | 2 => exact ⟨.green, clamp_px row x⟩
  | _ + 3 => exact ⟨.blue, clamp_px row x⟩

theorem dark_sample (i : Int) : (sample16 (fun _ => 0) i).toNat = 0 := by
  show ((0 : Byte) ++ (0 : Byte) : BitVec 16).toNat = 0
  decide

/-- White samples show through a black level that should hide them. -/
theorem not_cfaLaw_cut (hlevel : ¬ LevelKept p) (hp : ¬ Hidden p) (hw : 5 ≤ p.width.toNat)
    (hodd : p.width.toNat % 2 = 1) (hh : 3 ≤ p.height.toNat) : ¬ CfaLaw beyond p := by
  intro hlaw
  obtain ⟨hbl, hsize⟩ := not_or.mp hlevel
  have h255 : p.blackLevel.toNat % 256 ≠ 255 := fun h => hp (.inl h)
  have hin : Interior p 1 1 := by
    unfold Interior
    omega
  let white : FrameInput := ⟨fun j => if j % 2 = 0 then 255 else 3, fun _ => 0, fun _ => 0, 0⟩
  let black : FrameInput := ⟨fun _ => 0, fun _ => 0, fun _ => 0, 0⟩
  have hwhite : TenBit p white := fun i _ _ => by
    rw [bright_sample]
    decide
  have hblack : TenBit p black := fun i _ _ => (dark_sample i).le.trans (by decide)
  have hzero (f : FrameInput) (hf : ∀ i, (sample16 f.inp i).toNat ≤ 1023) (x y : Int) :
      sampleAt p f x y = 0 := by
    have hv := hf (y * p.width.toNat + x)
    rw [sampleAt, Nat.shiftRight_eq_div_pow]
    omega
  have hwhite0 := hzero white fun i => by
    rw [bright_sample]
    decide
  have hblack0 := hzero black fun i => (dark_sample i).le.trans (by decide)
  -- the law wants a dark pixel
  have hall (c : Colour) : chanAt beyond p white 1 1 c = some 0 := by
    by_cases hc : c = cfaColour p 1 1
    · have hown := (hlaw 1 1 hin).1 white hwhite
      rw [hwhite0, ← hc] at hown
      obtain ⟨b, hb, hb0⟩ := Option.map_eq_some_iff.mp hown
      rw [hb, BitVec.eq_of_toNat_eq (hb0.trans rfl : b.toNat = (0 : Byte).toNat)]
    · rw [(hlaw 1 1 hin).2 c hc white black hwhite hblack fun _ _ _ _ => by rw [hwhite0, hblack0]]
      refine chanAt_dark hw hodd hh hin (fun i h0 h1 => BitVec.eq_of_toNat_eq ?_) c
      rw [samples_toNat hblack h0 h1, dark_sample]
      simp
  obtain ⟨c, hc⟩ := scalarPixel_own (sampleRow p (samples p white) 1) (sampleRow p (samples p white) (1 - 1))
    (sampleRow p (samples p white) (1 + 1)) (posColor beyond p.bayerPattern.toNat (tilePlace p 1 1)) 1
  have hpixel := hall c
  rw [chanAt_eq hw hodd hh hin, pixelOf_scalar _ (.inl rfl), hc, Option.some.injEq] at hpixel
  -- the sample of the pixel lies in a block
  have hidx := frame_index (p := p) (x := 1) (y := 1) (by omega) (by omega)
  have hrows : 3 * (p.width.toNat : Int) ≤ (p.width.toNat : Int) * p.height.toNat := by nlinarith
  have hsize : 16 ≤ (p.width.toNat : Int) * p.height.toNat := by exact_mod_cast Nat.le_of_not_lt hsize
  have hsample := samples_toNat hwhite hidx.1 hidx.2
  rw [if_pos (by omega), bright_sample] at hsample
  have hnone : (samples p white (1 * p.width.toNat + 1)).toNat = 0 := congrArg BitVec.toNat hpixel
  rw [hnone] at hsample
  change 0 = 1023 / 4 - _ at hsample
  omega

end Dark

/-! ## Frames that break the law -/

/-- A picture of one shade with one sample of another. -/
def dotted (k : Int) (a b : Byte) : Mem := fun i => if i = k then a else b

section Breaks
variable {beyond : Nat → Byte} {p : DemosaicParams} {x y x₀ y₀ : Int} {a a' b : Byte}

theorem sampleRow_dotted (hx : 0 ≤ x ∧ x < p.width.toNat) (hx₀ : 0 ≤ x₀ ∧ x₀ < p.width.toNat) :
    sampleRow p (dotted (y₀ * p.width.toNat + x₀) a b) y x = if x = x₀ ∧ y = y₀ then a else b := by
  simp only [sampleRow, dotted]
  congr 1
  apply propext
  constructor
  · intro h
    by_cases hy : y = y₀
    · subst hy
      omega
    · have := row_outside (y := y₀) hx.2 hx.1 (le_refl _) hy
      omega
  · rintro ⟨rfl, rfl⟩
    rfl

theorem dotted_le {t : Byte} (ha : a ≤ t) (hb : b ≤ t) (k i : Int) : dotted k a b i ≤ t := by
  unfold dotted
  split
  · exact ha
  · exact hb

theorem chanAt_frameOf (hbl : p.blackLevel.toNat < 255) (hw : 5 ≤ p.width.toNat)
    (hodd : p.width.toNat % 2 = 1) (hh : 3 ≤ p.height.toNat) (hin : Interior p x y) {s : Mem}
    (hs : ∀ i, s i ≤ top p) (c : Colour) :
    chanAt beyond p (frameOf p s) x y c = some ((pixelOf beyond p s x y).chan c.chan) :=
  chanAt_of_samples hw hodd hh hin (fun i h0 h1 => samples_frameOf hbl (hs i) h0 h1) c

theorem zero_le_byte (t : Byte) : (0 : Byte) ≤ t := BitVec.le_def.mpr (Nat.zero_le _)

/-- What the law says about a bright sample itself. -/
theorem CfaLaw.dotted_own (hlaw : CfaLaw beyond p) (hbl : p.blackLevel.toNat < 255) (hw : 5 ≤ p.width.toNat)
    (hodd : p.width.toNat % 2 = 1) (hh : 3 ≤ p.height.toNat) (hin : Interior p x y) :
    (pixelOf beyond p (dotted (y * p.width.toNat + x) (top p) 0) x y).chan (cfaColour p x y).chan = top p := by
  have hs := dotted_le (BitVec.le_refl (top p)) (zero_le_byte (top p)) (y * p.width.toNat + x)
  have h := (hlaw x y hin).1 _ (frameOf_tenBit p (dotted (y * p.width.toNat + x) (top p) 0))
  rw [chanAt_frameOf hbl hw hodd hh hin hs, Option.map_some, Option.some.injEq,
    sampleAt_frameOf hbl hs, dotted, if_pos rfl] at h
  exact BitVec.eq_of_toNat_eq h

/-- What the law says about a sample that is no neighbour of colour `c`: it may be any. -/
theorem CfaLaw.dotted_other (hlaw : CfaLaw beyond p) (hbl : p.blackLevel.toNat < 255)
    (hw : 5 ≤ p.width.toNat) (hodd : p.width.toNat % 2 = 1) (hh : 3 ≤ p.height.toNat)
    (hin : Interior p x y) (hx₀ : 0 ≤ x₀ ∧ x₀ < p.width.toNat) {c : Colour}
    (hc : c ≠ cfaColour p x y) (hno : Neighbour x y x₀ y₀ → cfaColour p x₀ y₀ ≠ c) (hb : b ≤ top p) :
    (pixelOf beyond p (dotted (y₀ * p.width.toNat + x₀) (top p) b) x y).chan c.chan =
      (pixelOf beyond p (dotted (y₀ * p.width.toNat + x₀) 0 b) x y).chan c.chan := by
  have hs := dotted_le (BitVec.le_refl (top p)) hb (y₀ * p.width.toNat + x₀)
  have hs' := dotted_le (zero_le_byte (top p)) hb (y₀ * p.width.toNat + x₀)
  have h := (hlaw x y hin).2 c hc _ _ (frameOf_tenBit p (dotted (y₀ * p.width.toNat + x₀) (top p) b))
    (frameOf_tenBit p (dotted (y₀ * p.width.toNat + x₀) 0 b)) (by
      intro x' y' hn hcol
      obtain ⟨hx1, hx2, hy1, hy2⟩ := hin
      obtain ⟨hn1, hn2, hn3, hn4, hn5⟩ := hn
      have hx' : 0 ≤ x' ∧ x' < (p.width.toNat : Int) := by omega
      have hne : ¬ (x' = x₀ ∧ y' = y₀) := by
        rintro ⟨rfl, rfl⟩
        exact hno ⟨hn1, hn2, hn3, hn4, hn5⟩ hcol
      have hdot (a : Byte) : dotted (y₀ * p.width.toNat + x₀) a b (y' * p.width.toNat + x') = b :=
        (sampleRow_dotted hx' hx₀).trans (if_neg hne)
      rw [sampleAt_frameOf hbl hs, sampleAt_frameOf hbl hs', hdot, hdot])
  rw [chanAt_frameOf hbl hw hodd hh hin hs, chanAt_frameOf hbl hw hodd hh hin hs', Option.some.injEq] at h
  exact h

/-- The colour of a colour type. -/
def typeColour (type : Nat) : Colour :=
  if type = 0 then .red else if type = 1 ∨ type = 2 then .green else .blue

/-- The pixel with one channel that is not 0. -/
def Colour.only (v : Byte) : Colour → Rgb
  | .red => ⟨v, 0, 0⟩
  | .green => ⟨0, v, 0⟩
  | .blue => ⟨0, 0, v⟩

theorem Colour.eq_of_only {v : Byte} (hv : v ≠ 0) {c d : Colour} (h : (c.only v).chan d.chan = v) :
    c = d := by
  cases c <;> cases d <;> first | rfl | exact absurd h.symm hv

/-- A single bright sample shows in the channel of its colour type only. -/
theorem scalarPixel_centre {row up dn : Mem} {x : Int} (hl : row (x - 1) = 0)
    (hr : row (x + 1) = 0) (hu : up (x - 1) = 0 ∧ up x = 0 ∧ up (x + 1) = 0)
    (hd : dn (x - 1) = 0 ∧ dn x = 0 ∧ dn (x + 1) = 0) (type : Nat) :
    scalarPixel row up dn type x = (typeColour type).only (row x) := by
  have hval := clamp_px row x
  have h0 : clamp 0 = 0 := by decide
  unfold px at hval
  match type with
  | 0 => simp [scalarPixel, typeColour, Colour.only, px, hl, hr, hu, hd, h0, hval]
  | 1 => simp [scalarPixel, typeColour, Colour.only, px, hl, hr, hu, hd, h0, hval]
  | 2 => simp [scalarPixel, typeColour, Colour.only, px, hl, hr, hu, hd, h0, hval]
  | _ + 3 => simp [scalarPixel, typeColour, Colour.only, px, hl, hr, hu, hd, h0, hval]

theorem top_pos (hbl : p.blackLevel.toNat < 255) : 1 ≤ (top p).toNat := by
  rw [top_toNat]
  omega

theorem tilePlace_lt (p : DemosaicParams) (x y : Int) : tilePlace p x y < 4 := by
  unfold tilePlace
  omega

/-- The law at the first interior pixel: `pos_color` and the pattern agree there. -/
theorem CfaLaw.typeColour_eq (hlaw : CfaLaw beyond p) (hbl : p.blackLevel.toNat < 255)
    (hw : 5 ≤ p.width.toNat) (hodd : p.width.toNat % 2 = 1) (hh : 3 ≤ p.height.toNat) :
    typeColour (posColor beyond p.bayerPattern.toNat (tilePlace p 1 1)) = cfaColour p 1 1 := by
  have hin : Interior p 1 1 := by
    unfold Interior
    omega
  have h := hlaw.dotted_own hbl hw hodd hh hin
  have hrow (y i : Int) (h0 : 0 ≤ i) (h1 : i ≤ 2) :
      sampleRow p (dotted (1 * p.width.toNat + 1) (top p) 0) y i = if i = 1 ∧ y = 1 then top p else 0 :=
    sampleRow_dotted (by omega) (by omega)
  have hoff (y : Int) (hy : y ≠ 1) (i : Int) (h0 : 0 ≤ i) (h1 : i ≤ 2) :
      sampleRow p (dotted (1 * p.width.toNat + 1) (top p) 0) y i = 0 := by
    rw [hrow y i h0 h1, if_neg (by omega)]
  have hup := hoff (1 - 1) (by decide)
  have hdn := hoff (1 + 1) (by decide)
  rw [pixelOf_scalar _ (.inl rfl), scalarPixel_centre
    (hrow 1 0 (by decide) (by decide)) (hrow 1 2 (by decide) (by decide))
    ⟨hup 0 (by decide) (by decide), hup 1 (by decide) (by decide), hup 2 (by decide) (by decide)⟩
    ⟨hdn 0 (by decide) (by decide), hdn 1 (by decide) (by decide), hdn 2 (by decide) (by decide)⟩,
    hrow 1 1 (by decide) (by decide), if_pos ⟨rfl, rfl⟩] at h
  refine Colour.eq_of_only (fun h0 => ?_) h
  have hpos := top_pos hbl
  rw [h0] at hpos
  exact absurd hpos (by decide)

/-- Half of a bright and a dark sample is darker than half of two bright ones. -/
theorem half_ne (hbl : p.blackLevel.toNat < 255) {m n : Nat} (hm : m = (top p).toNat + (top p).toNat)
    (hn : n = (top p).toNat) : clamp ((m >>> 1 : Nat) : Int) ≠ clamp ((n >>> 1 : Nat) : Int) := by
  intro h
  have hpos := top_pos hbl
  have hlt := (top p).isLt
  rw [Nat.shiftRight_eq_div_pow, Nat.shiftRight_eq_div_pow] at h
  have hnat := congrArg BitVec.toNat h
  rw [clamp_toNat _ (by omega), clamp_toNat _ (by omega)] at hnat
  omega

/-- At a green position of pattern 0 the two green types are the wrong way round:
red is averaged from the two neighbours that are blue. -/
theorem not_cfaLaw_gbrg_green (hpat : p.bayerPattern.toNat = 0) (hbl : p.blackLevel.toNat < 255)
    (hw : 5 ≤ p.width.toNat) (hodd : p.width.toNat % 2 = 1) (hh : 3 ≤ p.height.toNat)
    (hplace : tilePlace p 1 1 = 0 ∨ tilePlace p 1 1 = 3) : ¬ CfaLaw beyond p := by
  intro hlaw
  have hin : Interior p 1 1 := by
    unfold Interior
    omega
  have hcolour (x y : Int) : cfaColour p x y =
      [Colour.green, .blue, .red, .green].getD (tilePlace p x y) .green := by
    rw [cfaColour, hpat]
    rfl
  rcases hplace with hplace | hplace
  · -- green type 1: the horizontal neighbours are blue
    have hleft : tilePlace p 0 1 = 1 := by
      unfold tilePlace at *
      omega
    have h := @CfaLaw.dotted_other beyond p 1 1 0 1 (top p) hlaw hbl hw hodd hh hin (by omega) .red
      (by rw [hcolour, hplace]; decide) (fun _ => by rw [hcolour, hleft]; decide) (BitVec.le_refl _)
    have hrow (a : Byte) (i : Int) (h0 : 0 ≤ i) (h1 : i ≤ 2) :
        sampleRow p (dotted (1 * p.width.toNat + 0) a (top p)) 1 i = if i = 0 ∧ (1 : Int) = 1 then a else top p :=
      sampleRow_dotted (by omega) (by omega)
    have hl (a : Byte) := hrow a (1 - 1) (by decide) (by decide)
    have hr (a : Byte) := hrow a (1 + 1) (by decide) (by decide)
    rw [pixelOf_scalar _ (.inl rfl), pixelOf_scalar _ (.inl rfl), hplace, hpat] at h
    change clamp ((px (sampleRow p _ 1) (1 - 1) + px (sampleRow p _ 1) (1 + 1)) >>> 1 : Nat) =
      clamp ((px (sampleRow p _ 1) (1 - 1) + px (sampleRow p _ 1) (1 + 1)) >>> 1 : Nat) at h
    rw [px, px, px, px, hl, hr, hl, hr] at h
    exact half_ne hbl rfl (Nat.zero_add _) h
  · -- green type 2: so are the vertical ones
    have hup : tilePlace p 1 0 = 1 := by
      unfold tilePlace at *
      omega
    have h := @CfaLaw.dotted_other beyond p 1 1 1 0 (top p) hlaw hbl hw hodd hh hin (by omega) .red
      (by rw [hcolour, hplace]; decide) (fun _ => by rw [hcolour, hup]; decide) (BitVec.le_refl _)
    have hcol (a : Byte) (y : Int) : sampleRow p (dotted (0 * p.width.toNat + 1) a (top p)) y 1 =
        if (1 : Int) = 1 ∧ y = 0 then a else top p := sampleRow_dotted (by omega) (by omega)
    have hu (a : Byte) := hcol a (1 - 1)
    have hd (a : Byte) := hcol a (1 + 1)
    rw [pixelOf_scalar _ (.inl rfl), pixelOf_scalar _ (.inl rfl), hplace, hpat] at h
    change clamp ((px (sampleRow p _ (1 - 1)) 1 + px (sampleRow p _ (1 + 1)) 1) >>> 1 : Nat) =
      clamp ((px (sampleRow p _ (1 - 1)) 1 + px (sampleRow p _ (1 + 1)) 1) >>> 1 : Nat) at h
    rw [px, px, px, px, hu, hd, hu, hd] at h
    exact half_ne hbl rfl (Nat.zero_add _) h

/-- Only the last row of `pos_color` is the documented arrangement. -/
theorem CfaLaw.pattern_eq (hlaw : CfaLaw beyond p) (hpat : p.bayerPattern.toNat < 4)
    (hbl : p.blackLevel.toNat < 255) (hw : 5 ≤ p.width.toNat) (hodd : p.width.toNat % 2 = 1)
    (hh : 3 ≤ p.height.toNat) : p.bayerPattern.toNat = 3 := by
  have htype := hlaw.typeColour_eq hbl hw hodd hh
  have hlt := tilePlace_lt p 1 1
  have hcases : p.bayerPattern.toNat = 0 ∨ p.bayerPattern.toNat = 1 ∨ p.bayerPattern.toNat = 2 ∨
      p.bayerPattern.toNat = 3 := by omega
  rcases hcases with h0 | h1 | h2 | h3
  · by_cases hplace : tilePlace p 1 1 = 0 ∨ tilePlace p 1 1 = 3
    · exact absurd hlaw (not_cfaLaw_gbrg_green h0 hbl hw hodd hh hplace)
    · rw [cfaColour, h0] at htype
      have h12 : tilePlace p 1 1 = 1 ∨ tilePlace p 1 1 = 2 := by omega
      rcases h12 with h | h
      · rw [h] at htype
        cases htype
      · rw [h] at htype
        cases htype
  · rw [cfaColour, h1] at htype
    generalize tilePlace p 1 1 = k at htype hlt
    have hk : k = 0 ∨ k = 1 ∨ k = 2 ∨ k = 3 := by omega
    rcases hk with rfl | rfl | rfl | rfl <;> cases htype
  · rw [cfaColour, h2] at htype
    generalize tilePlace p 1 1 = k at htype hlt
    have hk : k = 0 ∨ k = 1 ∨ k = 2 ∨ k = 3 := by omega
    rcases hk with rfl | rfl | rfl | rfl <;> cases htype
  · exact h3

end Breaks

/-! ## Batches -/

section Batch
variable (row up dn : Mem) (x : Int) (i : Fin 4)

theorem evenG1_red (od : Nat) : ((batchQuads row up dn 1 od x).1.pixel i).r.toNat =
    (px row (x + 2 * (i : Nat)) + px row (nextEven x i) + 1) / 2 := by
  change lane (vrhadd _ _) i = _
  rw [lane_rhadd, lane_ext_odd, lane_odd, left_col, Int.sub_add_cancel]

theorem oddG1_red (ev : Nat) : ((batchQuads row up dn ev 1 x).2.pixel i).r.toNat =
    (px row (x + 2 * (i : Nat)) + px row (nextEven x i) + 1) / 2 := by
  change lane (vrhadd _ _) i = _
  rw [lane_rhadd, lane_ext_odd, lane_odd, left_col, Int.sub_add_cancel]

theorem oddG2_blue (ev : Nat) : ((batchQuads row up dn ev 2 x).2.pixel i).b.toNat =
    (px up (x + 2 * (i : Nat) + 1) + px dn (x + 2 * (i : Nat) + 1)) / 2 := by
  change lane (vshrn (vaddl _ _) 1) i = _
  rw [lane_avg2, lane_odd, lane_odd]

theorem oddB_green (ev : Nat) : ((batchQuads row up dn ev 3 x).2.pixel i).g.toNat =
    (px row (x + 2 * (i : Nat)) + px row (nextEven x i) + px up (x + 2 * (i : Nat) + 1) +
      px dn (x + 2 * (i : Nat) + 1)) / 4 := by
  change lane (vshrn (vaddq (vaddl _ _) (vaddl _ _)) 2) i = _
  rw [lane_avg4, lane_ext_odd, lane_odd, lane_odd, lane_odd, left_col, Int.sub_add_cancel]

end Batch

section Wide
variable {beyond : Nat → Byte} {p : DemosaicParams} {x y : Int}

theorem pixelOf_even (s : Mem) (hw : 12 ≤ p.width.toNat) (i : Fin 4) (hx : x = 2 + 2 * (i : Nat)) :
    pixelOf beyond p s x y = (batchQuads (sampleRow p s y) (sampleRow p s (y - 1))
      (sampleRow p s (y + 1)) (rowTypes beyond p y).1 (rowTypes beyond p y).2 2).1.pixel i := by
  rw [hx]
  exact columnPixel_batch_even _ _ _ _ _ _ (by decide) (by decide) (by omega) i

theorem pixelOf_odd (s : Mem) (hw : 12 ≤ p.width.toNat) (i : Fin 4)
    (hx : x = 2 + 2 * (i : Nat) + 1) :
    pixelOf beyond p s x y = (batchQuads (sampleRow p s y) (sampleRow p s (y - 1))
      (sampleRow p s (y + 1)) (rowTypes beyond p y).1 (rowTypes beyond p y).2 2).2.pixel i := by
  rw [hx]
  exact columnPixel_batch_odd _ _ _ _ _ _ (by decide) (by decide) (by omega) i

theorem rowTypes_rggb (hpat : p.bayerPattern = 3) (y : Int) : rowTypes beyond p y =
    if (y + p.offset_y.toNat) % 2 = 0 then
      if p.offset_x.toNat % 2 = 0 then (0, 1) else (1, 0)
    else if p.offset_x.toNat % 2 = 0 then (2, 3) else (3, 2) := by
  have h0 := @columnType_rowTypes beyond p 0 y
  have h1 := @columnType_rowTypes beyond p 1 y
  rw [posColor_rggb hpat] at h0 h1
  simp only [columnType] at h0 h1
  apply Prod.ext
  · grind
  · grind

/-! Four channels of the first batch, as `process` computes them. -/

theorem col2_red (s : Mem) (hw : 12 ≤ p.width.toNat) (ht : rowTypes beyond p y = (1, 0)) :
    ((pixelOf beyond p s 2 y).chan Colour.red.chan).toNat =
      (px (sampleRow p s y) 2 + px (sampleRow p s y) 4 + 1) / 2 := by
  rw [pixelOf_even s hw 0 (by decide), ht]
  exact evenG1_red _ _ _ 2 0 0

theorem col3_blue (s : Mem) (hw : 12 ≤ p.width.toNat) (ht : rowTypes beyond p y = (3, 2)) :
    ((pixelOf beyond p s 3 y).chan Colour.blue.chan).toNat =
      (px (sampleRow p s (y - 1)) 3 + px (sampleRow p s (y + 1)) 3) / 2 := by
  rw [pixelOf_odd s hw 0 (by decide), ht]
  exact oddG2_blue _ _ _ 2 0 3

theorem col9_red (s : Mem) (hw : 12 ≤ p.width.toNat) (ht : rowTypes beyond p y = (0, 1)) :
    ((pixelOf beyond p s 9 y).chan Colour.red.chan).toNat =
      (px (sampleRow p s y) 8 + px (sampleRow p s y) 2 + 1) / 2 := by
  rw [pixelOf_odd s hw 3 (by decide), ht]
  exact oddG1_red _ _ _ 2 3 0

theorem col9_green (s : Mem) (hw : 12 ≤ p.width.toNat) (ht : rowTypes beyond p y = (2, 3)) :
    ((pixelOf beyond p s 9 y).chan Colour.green.chan).toNat =
      (px (sampleRow p s y) 8 + px (sampleRow p s y) 2 + px (sampleRow p s (y - 1)) 9 +
        px (sampleRow p s (y + 1)) 9) / 4 := by
  rw [pixelOf_odd s hw 3 (by decide), ht]
  exact oddB_green _ _ _ 2 3 2

/-- A batch breaks the law in row 1, whichever two types the row has. -/
theorem not_cfaLaw_wide (hpat : p.bayerPattern = 3) (hbl : p.blackLevel.toNat < 255)
    (hwide : 12 ≤ p.width.toNat) (hodd : p.width.toNat % 2 = 1) (hh : 3 ≤ p.height.toNat) :
    ¬ CfaLaw beyond p := by
  intro hlaw
  have hcolour := cfaColour_rggb hpat
  have htypes := @rowTypes_rggb beyond p hpat 1
  have hpos := top_pos hbl
  -- the sample at (x₀, y₀) as the columns of the first batch see it
  have hsee (a b : Byte) (x₀ y₀ y i : Int) (h : 0 ≤ x₀ ∧ x₀ ≤ 9) (hi : 0 ≤ i ∧ i ≤ 9) :
      px (sampleRow p (dotted (y₀ * p.width.toNat + x₀) a b) y) i =
        if i = x₀ ∧ y = y₀ then a.toNat else b.toNat := by
    rw [px, sampleRow_dotted (by omega) (by omega)]
    split <;> rfl
  have hsame (b : Byte) (hb : b ≤ top p) (x x₀ y₀ : Int) (c : Colour) (hx : 1 ≤ x ∧ x ≤ 9)
      (hx₀ : 0 ≤ x₀ ∧ x₀ ≤ 9) (hc : c ≠ cfaColour p x 1)
      (hno : Neighbour x 1 x₀ y₀ → cfaColour p x₀ y₀ ≠ c) :=
    congrArg BitVec.toNat (hlaw.dotted_other hbl (by omega) hodd hh
      (by unfold Interior; omega) (by omega) hc hno hb)
  have hdark := hsame 0 (zero_le_byte _)
  have hlight := hsame (top p) (BitVec.le_refl _)
  have h0 : (0 : Byte).toNat = 0 := rfl
  rcases Int.emod_two_eq_zero_or_one (1 + p.offset_y.toNat) with hy | hy
  · by_cases hx : p.offset_x.toNat % 2 = 0
    · -- types R, G1: the red of column 9 takes column 2 for column 10
      rw [if_pos hy, if_pos hx] at htypes
      have h := hdark 9 2 1 .red (by decide) (by decide)
        (by rw [hcolour, if_pos hy, if_neg (by omega)]; decide) (by unfold Neighbour; omega)
      rw [col9_red _ hwide htypes, col9_red _ hwide htypes] at h
      simp only [hsee _ _ 2 1 _ _ (by decide) (by decide : (0 : Int) ≤ 8 ∧ (8 : Int) ≤ 9),
        hsee _ _ 2 1 _ _ (by decide) (by decide : (0 : Int) ≤ 2 ∧ (2 : Int) ≤ 9), h0] at h
      norm_num at h
      omega
    · -- types G1, R: the red of column 2 is averaged from green samples
      rw [if_pos hy, if_neg hx] at htypes
      have h := hdark 2 2 1 .red (by decide) (by decide)
        (by rw [hcolour, if_pos hy, if_neg (by omega)]; decide) (by unfold Neighbour; omega)
      rw [col2_red _ hwide htypes, col2_red _ hwide htypes] at h
      simp only [hsee _ _ 2 1 _ _ (by decide) (by decide : (0 : Int) ≤ 2 ∧ (2 : Int) ≤ 9),
        hsee _ _ 2 1 _ _ (by decide) (by decide : (0 : Int) ≤ 4 ∧ (4 : Int) ≤ 9), h0] at h
      norm_num at h
      omega
  · have hy0 : ¬ (1 + (p.offset_y.toNat : Int)) % 2 = 0 := by omega
    by_cases hx : p.offset_x.toNat % 2 = 0
    · -- types G2, B: the green of column 9 takes column 2 for column 10
      rw [if_neg hy0, if_pos hx] at htypes
      have h := hlight 9 2 1 .green (by decide) (by decide)
        (by rw [hcolour, if_neg hy0, if_neg (by omega)]; decide) (by unfold Neighbour; omega)
      rw [col9_green _ hwide htypes, col9_green _ hwide htypes] at h
      simp only [hsee _ _ 2 1 _ _ (by decide) (by decide : (0 : Int) ≤ 8 ∧ (8 : Int) ≤ 9),
        hsee _ _ 2 1 _ _ (by decide) (by decide : (0 : Int) ≤ 2 ∧ (2 : Int) ≤ 9),
        hsee _ _ 2 1 _ _ (by decide) (by decide : (0 : Int) ≤ 9 ∧ (9 : Int) ≤ 9), h0] at h
      norm_num at h
      omega
    · -- types B, G2: the blue of column 3 is averaged from red samples
      rw [if_neg hy0, if_neg hx] at htypes
      have h := hlight 3 3 0 .blue (by decide) (by decide)
        (by rw [hcolour, if_neg hy0, if_pos (by omega)]; decide)
        (fun _ => by rw [hcolour, if_pos (by omega), if_pos (by omega)]; decide)
      rw [col3_blue _ hwide htypes, col3_blue _ hwide htypes] at h
      simp only [hsee _ _ 3 0 _ _ (by decide) (by decide : (0 : Int) ≤ 3 ∧ (3 : Int) ≤ 9), h0] at h
      norm_num at h
      omega

end Wide

/-- **When `process` obeys the documented pattern**: for RGGB in rows too short for a vector
batch, under a black level that is not cut, with any offsets; and where nothing is to be
seen at all. -/
theorem process_cfa_iff (beyond : Nat → Byte) (p : DemosaicParams)
    (hpat : p.bayerPattern.toNat < 4) (hw : 5 ≤ p.width.toNat) (hodd : p.width.toNat % 2 = 1)
    (hh : 3 ≤ p.height.toNat) :
    CfaLaw beyond p ↔ Hidden p ∨ p.bayerPattern = 3 ∧ p.width.toNat < 12 ∧ LevelKept p := by
  constructor
  · intro hlaw
    by_cases hhidden : Hidden p
    · exact .inl hhidden
    have hlevel : LevelKept p := by
      by_contra hcut
      exact not_cfaLaw_cut hcut hhidden hw hodd hh hlaw
    have hbl : p.blackLevel.toNat < 255 := by
      rcases hlevel with hlow | hsmall
      · have : p.blackLevel.toNat % 256 ≠ 255 := fun h => hhidden (.inl h)
        omega
      · exact Nat.lt_of_not_le fun h => hhidden (.inr ⟨hsmall, h⟩)
    have h3 : p.bayerPattern = 3 := BitVec.eq_of_toNat_eq (hlaw.pattern_eq hpat hbl hw hodd hh)
    refine .inr ⟨h3, ?_, hlevel⟩
    by_contra hwide
    exact not_cfaLaw_wide h3 hbl (by omega) hodd hh hlaw
  · rintro (hhidden | ⟨h3, hnarrow, hlevel⟩)
    · exact cfaLaw_hidden hhidden hw hodd hh
    · exact cfaLaw_rggb h3 hw hodd hh hnarrow hlevel

theorem process_cfa_rggb_7x5 :
    (rggb 7 5).width.toNat % 2 = 1 ∧ CfaLaw (fun _ => 0) { rggb 7 5 with blackLevel := 64 } :=
  ⟨by decide, (process_cfa_iff (fun _ => 0) { rggb 7 5 with blackLevel := 64 } (by decide) (by decide)
    (by decide) (by decide)).mpr (.inr ⟨rfl, by decide, .inl (by decide)⟩)⟩

/-- Documented GRBG is processed as RGGB: the green sample of pixel (1, 1) is lost. -/
theorem grbg_loses_green : ¬ CfaLaw (fun _ => 0) ⟨5, 3, 1, 0, 0, 0⟩ := by
  intro hlaw
  have h := (hlaw 1 1 (by unfold Interior; decide)).1 _ (frameOf_tenBit ⟨5, 3, 1, 0, 0, 0⟩ (dotted 6 255 0))
  exact absurd h (by decide)

end MochaHal.Demosaic
