import MochaHal.Isp.DemosaicRow
import Mathlib.Tactic.Linarith

/-! What a whole call of `process` leaves in the output buffer.  Offsets are
written `y * (w * 3) + k`, byte `k` of row `y`.  The converted samples depend on
the input only (`raw10To8bit_spec`), the row loop paints the first `written w`
columns of rows `1 .. h-2` (`rows_spec`), and `fillEdges` copies each border byte
from the nearest interior row and column (`fillEdges_spec`).  The copied column
`w - 2` is one that `neonRow` has painted exactly when `w` is odd. -/

namespace MochaHal.Demosaic
open MochaHal.Loop MochaHal.Neon

/-! ## Rows of bytes -/

theorem row_below {s y y' k : Int} (hk : k < s) (h0 : 0 ≤ k) (h : y' < y) : y' * s + k < y * s := by
  nlinarith

theorem row_above {s y y' k : Int} (h0 : 0 ≤ k) (hs : 0 ≤ s) (h : y < y') :
    y * s + s ≤ y' * s + k := by
  nlinarith

/-- A byte of another row lies outside the `len ≤ s` bytes of row `y`. -/
theorem row_outside {s y y' k len : Int} (hk : k < s) (h0 : 0 ≤ k) (hl : len ≤ s) (h : y' ≠ y) :
    y' * s + k < y * s ∨ y * s + len ≤ y' * s + k := by
  rcases Int.lt_or_gt_of_ne h with hlt | hgt
  · exact Or.inl (row_below hk h0 hlt)
  · have := row_above (s := s) h0 (by omega) hgt
    exact Or.inr (by omega)

/-! ## Converted samples -/

/-- The byte the conversion leaves at `i`: by blocks while a whole block fits. -/
def raw10Byte (inp : Mem) (total : Int) (bl : BitVec 16) (i : Int) : Byte :=
  if 16 * (i / 16) + 16 ≤ total then raw10Block inp bl (16 * (i / 16)) (fun _ => 0) i
  else raw10Scalar inp bl i (fun _ => 0) i

theorem raw10Block_in (inp out : Mem) (bl : BitVec 16) {j i : Int} (h0 : j ≤ i) (h1 : i < j + 16) :
    raw10Block inp bl j out i = raw10Block inp bl j (fun _ => 0) i := by
  have h : (i - j).toNat < 16 ∧ j ≤ i := ⟨by omega, h0⟩
  simp [raw10Block, vst1, h]

theorem raw10Block_out (inp out : Mem) (bl : BitVec 16) {j i : Int} (h : i < j ∨ j + 16 ≤ i) :
    raw10Block inp bl j out i = out i := by
  simp only [raw10Block, vst1]
  exact dif_neg (by omega)

/-- Bytes `0..i` are converted, the others are as they were. -/
def Converted (inp out : Mem) (total : Int) (bl : BitVec 16) (i : Int) (m : Mem) : Prop :=
  ∀ j, m j = if 0 ≤ j ∧ j < i then raw10Byte inp total bl j else out j

theorem raw10Block_converted {inp out m : Mem} {total : Int} {bl : BitVec 16} {i : Int}
    (h : Converted inp out total bl i m) (h0 : 0 ≤ i) (h16 : i % 16 = 0) (hb : i + 16 ≤ total) :
    Converted inp out total bl (i + 16) (raw10Block inp bl i m) := by
  intro j
  by_cases hj : i ≤ j ∧ j < i + 16
  · have hs : 16 * (j / 16) = i := by omega
    rw [raw10Block_in _ _ _ hj.1 hj.2, if_pos (by omega), raw10Byte, hs, if_pos hb]
  · rw [raw10Block_out _ _ _ (by omega), h j]
    by_cases hj0 : 0 ≤ j ∧ j < i
    · rw [if_pos hj0, if_pos (by omega)]
    · rw [if_neg hj0, if_neg (by omega)]

theorem raw10Scalar_converted {inp out m : Mem} {total : Int} {bl : BitVec 16} {i : Int}
    (h : Converted inp out total bl i m) (h0 : 0 ≤ i) (hb : total < 16 * (i / 16) + 16) :
    Converted inp out total bl (i + 1) (raw10Scalar inp bl i m) := by
  intro j
  by_cases hj : j = i
  · subst hj
    rw [if_pos (by omega), raw10Byte, if_neg (by omega)]
    simp [raw10Scalar, store]
  · have : raw10Scalar inp bl i m j = m j := by simp [raw10Scalar, store, hj]
    rw [this, h j]
    by_cases hj0 : 0 ≤ j ∧ j < i
    · rw [if_pos hj0, if_pos (by omega)]
    · rw [if_neg hj0, if_neg (by omega)]

/-- The conversion writes `raw10Byte` at every sample and nothing else. -/
theorem raw10To8bit_spec (inp out : Mem) (total : Int) (bl : BitVec 16) (ht : 0 ≤ total) :
    Converted inp out total bl total (raw10To8bit inp out total bl) := by
  have hblocks := forLoop_while (fun i => i + 16 ≤ total) 16 total
    (raw10Block inp bl)
    (fun i m => Converted inp out total bl i m ∧ 0 ≤ i ∧ i % 16 = 0 ∧ i ≤ total)
    (by omega) (fun i hi => by omega)
    (fun i m hc ⟨hp, h0, h16, _⟩ =>
      ⟨raw10Block_converted hp h0 h16 hc, by omega, by omega, hc⟩)
    total.toNat 0 out (by omega)
    ⟨fun j => by rw [if_neg (by omega)], le_refl _, by omega, ht⟩
  simp only [raw10To8bit]
  generalize forLoop _ _ _ _ _ _ = l at hblocks ⊢
  obtain ⟨i, m⟩ := l
  obtain ⟨⟨hp, h0, h16, hle⟩, hexit⟩ := hblocks
  simp only at hp h0 h16 hle hexit
  have htail := forLoop_while (fun j => j < total) 1 total
    (raw10Scalar inp bl)
    (fun j m => Converted inp out total bl j m ∧ i ≤ j ∧ j ≤ total)
    (by omega) (fun _ h => h)
    (fun j m hc ⟨hp, hij, _⟩ =>
      ⟨raw10Scalar_converted hp (by omega) (by omega), by omega, by omega⟩)
    total.toNat i m (by omega) ⟨hp, le_refl _, hle⟩
  generalize forLoop _ _ _ _ _ _ = l at htail ⊢
  obtain ⟨⟨hp, _, hle⟩, hexit⟩ := htail
  rwa [show l.1 = total by omega] at hp

/-! ## The black level

The blocks subtract the low eight bits of the black level, the tail all sixteen. -/

section BlackLevel
variable {inp : Mem} {total i : Int} {bl : BitVec 16}

theorem narrowed_toNat (a : Int) (j : Fin 8) :
    ((vshrn (vld1 (sample16 inp) a) 2 : Vec 8 8) j).toNat =
      (sample16 inp (a + (j : Nat))).toNat / 4 % 256 :=
  vshrn_toNat (w := 8) _ 2 j

theorem raw10Byte_block (h : 16 * (i / 16) + 16 ≤ total) :
    (raw10Byte inp total bl i).toNat = (sample16 inp i).toNat / 4 % 256 - bl.toNat % 256 := by
  have hin : (i - 16 * (i / 16)).toNat < 16 ∧ 16 * (i / 16) ≤ i := by omega
  have hlane : (pairLane (vshrn (vld1 (sample16 inp) (16 * (i / 16))) 2 : Vec 8 8)
      (vshrn (vld1 (sample16 inp) (16 * (i / 16) + 8)) 2) (i - 16 * (i / 16)).toNat).toNat =
      (sample16 inp i).toNat / 4 % 256 := by
    by_cases hlow : (i - 16 * (i / 16)).toNat < 8
    · rw [pairLane_left _ _ hlow, narrowed_toNat]
      congr 4
      simp only
      omega
    · rw [pairLane_right _ _ (by omega) (by omega), narrowed_toNat]
      congr 4
      simp only
      omega
  rw [raw10Byte, if_pos h]
  simp only [raw10Block, vst1, hin, and_self, ↓reduceDIte, vqsub, vcombine, hlane, vdup,
    BitVec.toNat_ofNat, BitVec.toNat_setWidth]
  omega

theorem raw10Byte_tail (h : ¬ 16 * (i / 16) + 16 ≤ total) (hv : (sample16 inp i).toNat ≤ 1023) :
    (raw10Byte inp total bl i).toNat = (sample16 inp i).toNat / 4 - bl.toNat := by
  rw [raw10Byte, if_neg h]
  simp only [raw10Scalar, store, ↓reduceIte, Nat.shiftRight_eq_div_pow]
  split
  · rw [BitVec.toNat_ofInt]
    omega
  · have h0 : (0 : Byte).toNat = 0 := rfl
    omega

/-- Every sample is shifted and lowered by the black level, wherever it lies. -/
def UniformLevel (inp out : Mem) (total : Int) (bl : BitVec 16) : Prop :=
  ∀ i, 0 ≤ i → i < total → ((raw10To8bit inp out total bl i).toNat : Int) =
    max (0 : Int) (((sample16 inp i).toNat >>> 2 : Nat) - (bl.toNat : Int))

/-- **When the conversion is uniform.**  A black level of 256 and more is lost in the
blocks: the samples there come out as after a lower one, unless that one hides them too. -/
theorem raw10To8bit_uniform_iff (inp out : Mem) (total : Int) (bl : BitVec 16)
    (h10 : ∀ i, 0 ≤ i → i < total → (sample16 inp i).toNat ≤ 1023) :
    UniformLevel inp out total bl ↔ bl.toNat < 256 ∨
      ∀ i, 0 ≤ i → 16 * (i / 16) + 16 ≤ total → (sample16 inp i).toNat >>> 2 ≤ bl.toNat % 256 := by
  have hwritten : ∀ i, 0 ≤ i → i < total →
      raw10To8bit inp out total bl i = raw10Byte inp total bl i := by
    intro i h0 h1
    rw [raw10To8bit_spec inp out total bl (by omega) i, if_pos ⟨h0, h1⟩]
  simp only [Nat.shiftRight_eq_div_pow]
  constructor
  · intro huni
    by_cases hbl : bl.toNat < 256
    · exact .inl hbl
    · refine .inr ?_
      intro i h0 hblock
      have hv := h10 i h0 (by omega)
      have hi := huni i h0 (by omega)
      rw [hwritten i h0 (by omega), raw10Byte_block hblock, Nat.shiftRight_eq_div_pow] at hi
      omega
  · intro hcond i h0 h1
    have hv := h10 i h0 h1
    rw [hwritten i h0 h1, Nat.shiftRight_eq_div_pow]
    by_cases hblock : 16 * (i / 16) + 16 ≤ total
    · rw [raw10Byte_block hblock]
      rcases hcond with hbl | hlow
      · omega
      · have hi := hlow i h0 hblock
        omega
    · rw [raw10Byte_tail hblock hv]
      omega

theorem bright_sample (i : Int) : sample16 (fun j => if j % 2 = 0 then 255 else 3) i = 1023 := by
  simp only [sample16]
  rw [if_neg (by omega), if_pos (by omega)]
  rfl

theorem raw10To8bit_uniform_64 :
    UniformLevel (fun j => if j % 2 = 0 then 255 else 3) (fun _ => 0) 17 64 :=
  (raw10To8bit_uniform_iff _ _ _ _ (fun i _ _ => by rw [bright_sample]; decide)).mpr
    (.inl (by decide))

/-- White samples stay white under a black level of 256. -/
theorem raw10To8bit_level256 : ¬ ∀ (inp out : Mem) (total : Int) (bl : BitVec 16),
    (∀ i, 0 ≤ i → i < total → (sample16 inp i).toNat ≤ 1023) → UniformLevel inp out total bl := by
  intro h
  have huni := h (fun j => if j % 2 = 0 then 255 else 3) (fun _ => 0) 16 256
    (fun i _ _ => by rw [bright_sample]; decide) 0 (by decide) (by decide)
  rw [raw10To8bit_spec _ _ _ _ (by decide) 0, if_pos (by decide), raw10Byte_block (by decide),
    bright_sample] at huni
  exact absurd huni (by decide)

end BlackLevel

/-! ## Painted rows -/

def Rgb.chan (p : Rgb) (k : Int) : Byte := if k = 0 then p.r else if k = 1 then p.g else p.b

theorem readRgb_chan (m : Mem) (base k : Int) :
    m (base + k) = (readRgb m (base + 3 * (k / 3))).chan (k % 3) := by
  have h3 : k % 3 = 0 ∨ k % 3 = 1 ∨ k % 3 = 2 := by omega
  rcases h3 with h | h | h
  · simp only [readRgb, Rgb.chan, h, ↓reduceIte]
    congr 1; omega
  · simp only [readRgb, Rgb.chan, h, one_ne_zero, ↓reduceIte]
    congr 1; omega
  · simp only [readRgb, Rgb.chan, h, OfNat.ofNat_ne_zero, OfNat.ofNat_ne_one, ↓reduceIte]
    congr 1; omega

theorem written_le {w : Int} (hw : 4 ≤ w) : written w ≤ w ∧ 0 ≤ written w := by
  unfold written
  split <;> [skip; split] <;> omega

section Frame

variable (beyond : Nat → Byte) (p : DemosaicParams) (b8 : Mem)

/-- Byte `k` of output row `y`, painted from the samples. -/
def frameByte (y k : Int) : Byte :=
  let w : Int := p.width.toNat
  let t := rowTypes beyond p y
  (columnPixel (fun i => b8 (y * w + i)) (fun i => b8 ((y - 1) * w + i))
    (fun i => b8 ((y + 1) * w + i)) w t.1 t.2 (k / 3)).chan (k % 3)

/-- Rows `1..y` are painted in their first `written w` columns. -/
def RowsPainted (rgb : Mem) (y : Int) (m : Mem) : Prop :=
  let w : Int := p.width.toNat
  ∀ y' k, 0 ≤ k → k < w * 3 → m (y' * (w * 3) + k) =
    if 1 ≤ y' ∧ y' < y ∧ k < 3 * written w then frameByte beyond p b8 y' k
    else rgb (y' * (w * 3) + k)

variable {beyond p b8} {rgb m : Mem}

theorem processRow_painted {y : Int} (hw : 4 ≤ (p.width.toNat : Int)) (hy : 1 ≤ y)
    (h : RowsPainted beyond p b8 rgb y m) :
    RowsPainted beyond p b8 rgb (y + 1) (processRow beyond p b8 y m) := by
  have hwr := written_le hw
  obtain ⟨hpix, hframe⟩ := neonRow_spec (fun i => b8 (y * p.width.toNat + i))
    (fun i => b8 ((y - 1) * p.width.toNat + i)) (fun i => b8 ((y + 1) * p.width.toNat + i)) m
    p.width.toNat (y * (p.width.toNat * 3)) (rowTypes beyond p y).1 (rowTypes beyond p y).2
  change ∀ y' k, 0 ≤ k → k < _ → neonRow _ _ _ _ _ _ _ _ _ = _
  intro y' k h0 hk
  by_cases hy' : y' = y
  · subst hy'
    by_cases hkw : k < 3 * written p.width.toNat
    · rw [if_pos (by omega), readRgb_chan (neonRow _ _ _ _ _ _ _ _), hpix _ (by omega) (by omega)]
      rfl
    · rw [if_neg (by omega), hframe _ (by omega), h y' k h0 hk, if_neg (by omega)]
  · rw [hframe _ (row_outside hk h0 (by omega) hy'), h y' k h0 hk]
    by_cases hin : 1 ≤ y' ∧ y' < y ∧ k < 3 * written p.width.toNat
    · rw [if_pos hin, if_pos (by omega)]
    · rw [if_neg hin, if_neg (by omega)]

variable (beyond p b8 rgb)

/-- The buffer after the row loop of `process`. -/
def rowLoop : Mem :=
  (forLoop (fun y => y < (p.height.toNat : Int) - 1) 1 (processRow beyond p b8)
    (p.height.toNat : Int).toNat 1 rgb).2

theorem rows_spec (hw : 4 ≤ (p.width.toNat : Int)) (hh : 3 ≤ (p.height.toNat : Int)) :
    RowsPainted beyond p b8 rgb (p.height.toNat - 1) (rowLoop beyond p b8 rgb) := by
  have hrows := forLoop_while (fun y => y < (p.height.toNat : Int) - 1) 1
    (p.height.toNat) (processRow beyond p b8)
    (fun y m => RowsPainted beyond p b8 rgb y m ∧ 1 ≤ y ∧ y ≤ p.height.toNat - 1)
    (by omega) (fun y hy => by omega)
    (fun y m hc ⟨hp, h1, _⟩ => ⟨processRow_painted hw h1 hp, by omega, by omega⟩)
    (p.height.toNat : Int).toNat 1 rgb (by omega)
    ⟨fun y' k _ _ => by rw [if_neg (by omega)], by omega, by omega⟩
  unfold rowLoop
  generalize forLoop _ _ _ _ _ _ = l at hrows ⊢
  obtain ⟨⟨hp, _, hle⟩, hexit⟩ := hrows
  rwa [show l.1 = p.height.toNat - 1 by omega] at hp

end Frame

/-! ## Edges -/

/-- The row a border row is copied from. -/
def rowSource (h y : Int) : Int := if y = 0 then 1 else if y = h - 1 then h - 2 else y

/-- The byte of its row a border column is copied from. -/
def colSource (w k : Int) : Int := if k < 3 then k + 3 else if 3 * (w - 1) ≤ k then k - 3 else k

theorem colSource_bounds {w k : Int} (hw : 3 ≤ w) (h0 : 0 ≤ k) (hk : k < w * 3) :
    0 ≤ colSource w k ∧ colSource w k < 3 * (w - 1) := by
  unfold colSource
  split <;> [skip; split] <;> omega

theorem rowSource_bounds {h y : Int} (hh : 3 ≤ h) (h0 : 0 ≤ y) (hy : y < h) :
    1 ≤ rowSource h y ∧ rowSource h y < h - 1 := by
  unfold rowSource
  split <;> [skip; split] <;> omega

theorem fillRow_other (w y y' k : Int) (m : Mem) (h0 : 0 ≤ k) (hk : k < w * 3)
    (hy : y' ≠ y) : fillRow w y m (y' * (w * 3) + k) = m (y' * (w * 3) + k) := by
  have := row_outside (y := y) hk h0 (le_refl _) hy
  generalize y' * (w * 3) = r' at *
  unfold fillRow
  generalize y * (w * 3) = r at *
  simp only [store]
  rw [if_neg (by omega), if_neg (by omega), if_neg (by omega), if_neg (by omega),
    if_neg (by omega), if_neg (by omega)]

/-- The six stores of one row read only bytes they do not write. -/
theorem fillRow_eq (w y : Int) (m : Mem) (hw : 3 ≤ w) :
    fillRow w y m = storeRgb (storeRgb m (y * (w * 3)) (readRgb m (y * (w * 3) + 3)))
      (y * (w * 3) + (w - 1) * 3) (readRgb m (y * (w * 3) + (w - 2) * 3)) := by
  unfold fillRow
  generalize y * (w * 3) = r
  simp only [storeRgb, readRgb, store]
  funext i
  grind

theorem storeRgb_at (m : Mem) (off i : Int) (p : Rgb) (h0 : off ≤ i) (h3 : i < off + 3) :
    storeRgb m off p i = p.chan (i - off) := by
  simp only [storeRgb, store, Rgb.chan]
  grind

theorem chan_readRgb (m : Mem) (off j : Int) (h0 : 0 ≤ j) (h3 : j < 3) :
    (readRgb m off).chan j = m (off + j) := by
  simp only [readRgb, Rgb.chan]
  grind

theorem fillRow_same (w y k : Int) (m : Mem) (hw : 3 ≤ w) (h0 : 0 ≤ k) (hk : k < w * 3) :
    fillRow w y m (y * (w * 3) + k) = m (y * (w * 3) + colSource w k) := by
  rw [fillRow_eq w y m hw]
  generalize y * (w * 3) = r
  unfold colSource
  by_cases hlast : 3 * (w - 1) ≤ k
  · rw [storeRgb_at _ _ _ _ (by omega) (by omega), chan_readRgb _ _ _ (by omega) (by omega),
      if_neg (by omega), if_pos hlast]
    congr 1; omega
  · rw [storeRgb_frame _ _ _ _ (by omega)]
    by_cases hfirst : k < 3
    · rw [storeRgb_at _ _ _ _ (by omega) (by omega), chan_readRgb _ _ _ (by omega) (by omega),
        if_pos hfirst]
      congr 1; omega
    · rw [storeRgb_frame _ _ _ _ (by omega), if_neg hfirst, if_neg hlast]

/-- The column loop replaces the border columns of every row. -/
theorem fillRows_spec (w h : Int) (m : Mem) (hw : 3 ≤ w) (hh : 0 ≤ h) (y k : Int)
    (hy0 : 0 ≤ y) (hy : y < h) (h0 : 0 ≤ k) (hk : k < w * 3) :
    (forLoop (fun y => y < h) 1 (fillRow w) h.toNat 0 m).2 (y * (w * 3) + k) =
      m (y * (w * 3) + colSource w k) := by
  have := forLoop_while (fun y => y < h) 1 h (fillRow w)
    (fun z m' => (∀ y k, 0 ≤ k → k < w * 3 → m' (y * (w * 3) + k) =
      m (y * (w * 3) + if 0 ≤ y ∧ y < z then colSource w k else k)) ∧ 0 ≤ z ∧ z ≤ h)
    (by omega) (fun _ hz => hz)
    (by
      rintro z m' hz ⟨hm, hz0, _⟩
      refine ⟨fun y k h0 hk => ?_, by omega, by omega⟩
      obtain ⟨hc0, hc⟩ := colSource_bounds hw h0 hk
      by_cases hyz : y = z
      · subst hyz
        rw [fillRow_same w y k m' hw h0 hk, hm y _ hc0 (by omega), if_neg (by omega), if_pos (by omega)]
      · rw [fillRow_other w z y k m' h0 hk hyz, hm y k h0 hk]
        by_cases hin : 0 ≤ y ∧ y < z
        · rw [if_pos hin, if_pos (by omega)]
        · rw [if_neg hin, if_neg (by omega)])
    h.toNat 0 m (by omega)
    ⟨fun y k _ _ => by rw [if_neg (by omega)], by omega, hh⟩
  generalize forLoop _ _ _ _ _ _ = l at this ⊢
  obtain ⟨⟨hm, _, hle⟩, hexit⟩ := this
  rw [hm y k h0 hk, if_pos (by omega)]

/-- The two row copies replace the first and the last row. -/
theorem memcpy_rows (w h : Int) (m : Mem) (hw : 0 < w) (hh : 3 ≤ h) (y k : Int)
    (hy0 : 0 ≤ y) (h0 : 0 ≤ k) (hk : k < w * 3) :
    memcpy (memcpy m 0 (w * 3) (w * 3)) ((h - 1) * (w * 3)) ((h - 2) * (w * 3)) (w * 3)
      (y * (w * 3) + k) = m (rowSource h y * (w * 3) + k) := by
  have hrow : ∀ y' : Int, y' ≠ y → ¬ (y' * (w * 3) ≤ y * (w * 3) + k ∧
      y * (w * 3) + k < y' * (w * 3) + w * 3) := by
    intro y' hne
    have := row_outside (y := y') hk h0 (le_refl _) (Ne.symm hne)
    omega
  have hfirst : ∀ z : Int, 1 ≤ z → memcpy m 0 (w * 3) (w * 3) (z * (w * 3) + k) =
      m (z * (w * 3) + k) := by
    intro z hz
    have : w * 3 ≤ z * (w * 3) := by nlinarith
    simp only [memcpy]
    rw [if_neg (by omega)]
  by_cases hlast : y = h - 1
  · subst hlast
    have e : (h - 1) * (w * 3) + k - (h - 1) * (w * 3) = k := by omega
    rw [memcpy, if_pos (by omega), e, hfirst _ (by omega), rowSource, if_neg (by omega),
      if_pos rfl]
  · rw [memcpy, if_neg (hrow _ (Ne.symm hlast)), rowSource]
    by_cases hz : y = 0
    · subst hz
      rw [memcpy, if_pos (by omega), if_pos rfl]
      congr 1; omega
    · rw [hfirst y (by omega), if_neg hz, if_neg hlast]

theorem fillEdges_spec (w h : Int) (m : Mem) (hw : 3 ≤ w) (hh : 3 ≤ h) (y k : Int)
    (hy0 : 0 ≤ y) (hy : y < h) (h0 : 0 ≤ k) (hk : k < w * 3) :
    fillEdges m w h (y * (w * 3) + k) = m (rowSource h y * (w * 3) + colSource w k) := by
  obtain ⟨hc0, hc⟩ := colSource_bounds hw h0 hk
  simp only [fillEdges]
  rw [fillRows_spec w h _ hw (by omega) y k hy0 hy h0 hk,
    memcpy_rows w h m (by omega) hh y _ hy0 hc0 (by omega)]

/-! ## The call -/

theorem vld1_congr {m m' : Mem} {a lo hi : Int} (h : ∀ i, lo ≤ i → i < hi → m i = m' i)
    (hl : lo ≤ a) (hh : a + 8 ≤ hi) : (vld1 m a : Vec 8 8) = vld1 m' a := by
  funext i
  exact h _ (by omega) (by omega)

/-- A painted pixel reads its three sample rows inside their `w` columns only. -/
theorem columnPixel_congr {row up dn row' up' dn' : Mem} {w c : Int} (ev od : Nat) (hw : 4 ≤ w)
    (hr : ∀ i, 0 ≤ i → i < w → row i = row' i) (hu : ∀ i, 0 ≤ i → i < w → up i = up' i)
    (hd : ∀ i, 0 ≤ i → i < w → dn i = dn' i) (h0 : 0 ≤ c) (hc : c < written w) :
    columnPixel row up dn w ev od c = columnPixel row' up' dn' w ev od c := by
  have hcw : c < w - 1 := by
    unfold written at hc
    split at hc <;> [skip; split at hc] <;> omega
  have hscalar : ∀ t x, 1 ≤ x → x < w - 1 →
      scalarPixel row up dn t x = scalarPixel row' up' dn' t x := by
    intro t x h1 hx
    simp only [scalarPixel, px]
    rw [hr x (by omega) (by omega), hr (x - 1) (by omega) (by omega), hr (x + 1) (by omega) (by omega),
      hu x (by omega) (by omega), hu (x - 1) (by omega) (by omega), hu (x + 1) (by omega) (by omega),
      hd x (by omega) (by omega), hd (x - 1) (by omega) (by omega), hd (x + 1) (by omega) (by omega)]
  simp only [columnPixel]
  split
  · simp only [edgePixel, px]
    rw [hr 0 (by omega) (by omega), hr 1 (by omega) (by omega), hu 0 (by omega) (by omega),
      hu 1 (by omega) (by omega), hd 0 (by omega) (by omega), hd 1 (by omega) (by omega)]
  · split
    · exact hscalar od 1 (by omega) (by omega)
    · split
      · have hs : 2 ≤ blockStart c := by unfold blockStart; omega
        simp only [batchPixel, batchQuads]
        rw [vld1_congr hr (by omega) (by omega), vld1_congr hr (by omega) (by omega),
          vld1_congr hu (by omega) (by omega), vld1_congr hu (by omega) (by omega),
          vld1_congr hd (by omega) (by omega), vld1_congr hd (by omega) (by omega)]
      · exact hscalar _ c (by omega) hcw

/-- Both calls wrote a buffer and the first `len` bytes are the same. -/
def SameBytes (len : Int) (a b : Option Mem) : Prop :=
  ∃ m m', a = some m ∧ b = some m' ∧ ∀ i, 0 ≤ i → i < len → m i = m' i

/-- An initialised object, with the samples of an earlier frame in `buf`. -/
def ready (p : DemosaicParams) (buf : Mem) (size : BitVec 32) : DemosaicNEON :=
  ⟨p, true, some buf, size⟩

section Process

variable (beyond : Nat → Byte) (p : DemosaicParams)

/-- Every output byte is a painted byte, or an old byte of an unpainted column. -/
theorem processFrame_spec (b8 rgb : Mem) (hw : 4 ≤ (p.width.toNat : Int))
    (hh : 3 ≤ (p.height.toNat : Int)) (y k : Int) (hy0 : 0 ≤ y) (hy : y < p.height.toNat)
    (h0 : 0 ≤ k) (hk : k < (p.width.toNat : Int) * 3) :
    processFrame beyond p b8 rgb (y * ((p.width.toNat : Int) * 3) + k) =
      if colSource p.width.toNat k < 3 * written p.width.toNat then
        frameByte beyond p b8 (rowSource p.height.toNat y) (colSource p.width.toNat k)
      else rgb (rowSource p.height.toNat y * ((p.width.toNat : Int) * 3) +
        colSource p.width.toNat k) := by
  obtain ⟨hc0, hc⟩ := colSource_bounds (by omega) h0 hk
  obtain ⟨hr1, hr⟩ := rowSource_bounds hh hy0 hy
  change fillEdges (rowLoop beyond p b8 rgb) _ _ _ = _
  rw [fillEdges_spec _ _ _ (by omega) hh y k hy0 hy h0 hk,
    rows_spec beyond p b8 rgb hw hh _ _ hc0 (by omega)]
  by_cases hin : colSource p.width.toNat k < 3 * written p.width.toNat
  · rw [if_pos ⟨hr1, hr, hin⟩, if_pos hin]
  · rw [if_neg (by omega), if_neg hin]

/-- The bytes of `b8` that matter are those of the `w * h` samples. -/
theorem frameByte_congr {b8 b8' : Mem} (hw : 4 ≤ (p.width.toNat : Int))
    (hb : ∀ i, 0 ≤ i → i < (p.width.toNat : Int) * p.height.toNat → b8 i = b8' i) (y k : Int)
    (hy1 : 1 ≤ y) (hy : y < (p.height.toNat : Int) - 1) (h0 : 0 ≤ k)
    (hk : k < 3 * written p.width.toNat) :
    frameByte beyond p b8 y k = frameByte beyond p b8' y k := by
  have hrow : ∀ z : Int, 0 ≤ z → z < p.height.toNat → ∀ i, 0 ≤ i → i < (p.width.toNat : Int) →
      b8 (z * p.width.toNat + i) = b8' (z * p.width.toNat + i) := by
    intro z hz0 hz i hi0 hi
    have : (z + 1) * p.width.toNat ≤ (p.height.toNat : Int) * p.width.toNat :=
      mul_le_mul_of_nonneg_right (by omega) (by omega)
    exact hb _ (by positivity) (by linarith [mul_comm (p.width.toNat : Int) p.height.toNat])
  simp only [frameByte]
  rw [columnPixel_congr _ _ hw (hrow y (by omega) (by omega)) (hrow (y - 1) (by omega) (by omega))
    (hrow (y + 1) (by omega) (by omega)) (by omega) (by omega)]

/-- The output of one call on an initialised object. -/
theorem process_ready (buf inp rgb : Mem) (size : BitVec 32) :
    ((ready p buf size).process beyond (some inp) (some rgb)).2 =
      some (processFrame beyond p (raw10To8bit inp buf ((p.width.toNat : Int) * p.height.toNat)
        p.blackLevel) rgb) := rfl

/-- For an even width two output buffers that differ everywhere still differ in byte
`3(w-1)` of row 1. -/
theorem process_even_differs (inp : Mem) (size : BitVec 32) (hw : 4 ≤ p.width.toNat)
    (hh : 3 ≤ p.height.toNat) (heven : p.width.toNat % 2 = 0) :
    ¬ SameBytes (3 * p.width.toNat * p.height.toNat)
      ((ready p (fun _ => 0) size).process beyond (some inp) (some fun _ => 0)).2
      ((ready p (fun _ => 0) size).process beyond (some inp) (some fun _ => 1)).2 := by
  have hw' : 4 ≤ (p.width.toNat : Int) := by omega
  have hh' : 3 ≤ (p.height.toNat : Int) := by omega
  rintro ⟨m, m', hm, hm', hsame⟩
  rw [process_ready, Option.some.injEq] at hm hm'
  have hwr : written p.width.toNat = p.width.toNat - 2 := by
    unfold written
    rw [if_neg (by omega), if_neg (by omega)]
  have hcol : colSource p.width.toNat (3 * (p.width.toNat - 1)) = 3 * (p.width.toNat - 2) := by
    unfold colSource
    rw [if_neg (by omega), if_pos (by omega)]
    omega
  have hi := hsame (1 * ((p.width.toNat : Int) * 3) + 3 * (p.width.toNat - 1)) (by omega)
    (by nlinarith)
  rw [← hm, ← hm', processFrame_spec beyond p _ _ hw' hh' 1 _ (by omega) (by omega) (by omega)
    (by omega), processFrame_spec beyond p _ _ hw' hh' 1 _ (by omega) (by omega) (by omega)
    (by omega), hcol, hwr, if_neg (by omega), if_neg (by omega)] at hi
  exact absurd hi (by decide)

/-- For an odd width every byte comes from a painted column. -/
theorem process_odd_sameBytes (inp : Mem) (size : BitVec 32) (hw : 4 ≤ p.width.toNat)
    (hh : 3 ≤ p.height.toNat) (hodd : p.width.toNat % 2 = 1) (buf buf' rgb rgb' : Mem) :
    SameBytes (3 * p.width.toNat * p.height.toNat)
      ((ready p buf size).process beyond (some inp) (some rgb)).2
      ((ready p buf' size).process beyond (some inp) (some rgb')).2 := by
  have hw' : 4 ≤ (p.width.toNat : Int) := by omega
  have hh' : 3 ≤ (p.height.toNat : Int) := by omega
  refine ⟨_, _, process_ready beyond p buf inp rgb size, process_ready beyond p buf' inp rgb' size,
    fun i hi0 hi => ?_⟩
  -- byte `k` of row `y`
  have hs : 0 < (p.width.toNat : Int) * 3 := by omega
  have hk0 := Int.emod_nonneg i (by omega : (p.width.toNat : Int) * 3 ≠ 0)
  have hk := Int.emod_lt_of_pos i hs
  have hy0 := Int.ediv_nonneg hi0 (by omega : 0 ≤ (p.width.toNat : Int) * 3)
  have hy : i / ((p.width.toNat : Int) * 3) < p.height.toNat :=
    Int.ediv_lt_of_lt_mul hs (by linarith)
  have e : i = i / ((p.width.toNat : Int) * 3) * ((p.width.toNat : Int) * 3) +
      i % ((p.width.toNat : Int) * 3) := (Int.ediv_mul_add_emod i _).symm
  have hwr : written p.width.toNat = p.width.toNat - 1 := by
    unfold written
    rw [if_neg (by omega), if_pos (by omega)]
  obtain ⟨hc0, hc⟩ := colSource_bounds (by omega : 3 ≤ (p.width.toNat : Int)) hk0 hk
  obtain ⟨hr1, hr⟩ := rowSource_bounds hh' hy0 hy
  rw [e, processFrame_spec beyond p _ _ hw' hh' _ _ hy0 hy hk0 hk,
    processFrame_spec beyond p _ _ hw' hh' _ _ hy0 hy hk0 hk, if_pos (by omega),
    if_pos (by omega)]
  apply frameByte_congr beyond p hw' _ _ _ hr1 hr hc0 (by omega)
  intro j hj0 hj
  have ht : 0 ≤ (p.width.toNat : Int) * p.height.toNat := by positivity
  rw [raw10To8bit_spec inp buf _ p.blackLevel ht j, raw10To8bit_spec inp buf' _ p.blackLevel ht j,
    if_pos ⟨hj0, hj⟩, if_pos ⟨hj0, hj⟩]

/-- **The output is a function of the input frame exactly for odd widths.**  For
an even width column `w - 2` is never painted, and `fillEdges` copies its old
contents into the last column. -/
theorem process_sameBytes_iff (inp : Mem) (size : BitVec 32) (hw : 4 ≤ p.width.toNat)
    (hh : 3 ≤ p.height.toNat) :
    (∀ buf buf' rgb rgb' : Mem, SameBytes (3 * p.width.toNat * p.height.toNat)
      ((ready p buf size).process beyond (some inp) (some rgb)).2
      ((ready p buf' size).process beyond (some inp) (some rgb')).2) ↔
    p.width.toNat % 2 = 1 := by
  constructor
  · intro h
    by_contra hodd
    exact process_even_differs beyond p inp size hw hh (by omega) (h _ _ _ _)
  · exact process_odd_sameBytes beyond p inp size hw hh

end Process

/-- A 5 by 3 frame: odd width, so nothing of the old buffers survives. -/
theorem process_sameBytes_5x3 :
    (rggb 5 3).width.toNat % 2 = 1 ∧
      ∀ buf buf' rgb rgb' : Mem, SameBytes (3 * (5 : BitVec 16).toNat * (3 : BitVec 16).toNat)
        ((ready (rggb 5 3) buf 0).process (fun _ => 0) (some (spot 0)) (some rgb)).2
        ((ready (rggb 5 3) buf' 0).process (fun _ => 0) (some (spot 0)) (some rgb')).2 :=
  ⟨by decide, (process_sameBytes_iff (fun _ => 0) (rggb 5 3) (spot 0) 0 (by decide) (by decide)).mpr
    (by decide)⟩

/-- A 4 by 3 frame over an all-zero and over an all-one output buffer: red of the
last pixel of row 1 (byte 21) is what the buffer held at column 2. -/
theorem process_keeps_stale_column :
    ¬ SameBytes (3 * 4 * 3)
      ((ready (rggb 4 3) (fun _ => 0) 0).process (fun _ => 0) (some (spot 0)) (some fun _ => 0)).2
      ((ready (rggb 4 3) (fun _ => 0) 0).process (fun _ => 0) (some (spot 0)) (some fun _ => 1)).2 := by
  rintro ⟨m, m', hm, hm', hsame⟩
  rw [process_ready, Option.some.injEq] at hm hm'
  have h := hsame 21 (by decide) (by decide)
  rw [← hm, ← hm'] at h
  exact absurd h (by decide)

end MochaHal.Demosaic
