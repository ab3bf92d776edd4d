import MochaHal.Isp.Demosaic

/-! What `neonRow` leaves in one output row.  `columnPixel` is the pixel of each
column and `written` the number of columns the two loops reach; `neonRow_spec`
says that these pixels are stored and nothing else changes.

The lanes of a batch are then compared with the scalar formulas.  A batch loads
eight bytes but unzips each register with itself, so `vext` by one lane brings
back column `x` where column `x + 8` is meant, the `vrhadd` averages round up
where the scalar ones round down, and an even G1 or odd G2 column takes an
average computed for its neighbour.  `RowAgrees` lists the samples for which
none of this shows. -/

namespace MochaHal.Demosaic
open MochaHal.Loop MochaHal.Neon

def readRgb (m : Mem) (off : Int) : Rgb := ⟨m off, m (off + 1), m (off + 2)⟩

theorem storeRgb_frame (m : Mem) (off : Int) (p : Rgb) (i : Int) (h : i < off ∨ off + 3 ≤ i) :
    storeRgb m off p i = m i := by
  have h0 : i ≠ off := by omega
  have h1 : i ≠ off + 1 := by omega
  have h2 : i ≠ off + 2 := by omega
  simp [storeRgb, store, h0, h1, h2]

theorem readRgb_storeRgb (m : Mem) (off : Int) (p : Rgb) : readRgb (storeRgb m off p) off = p := by
  have h1 : off ≠ off + 1 := by omega
  have h2 : off ≠ off + 2 := by omega
  have h3 : off + 1 ≠ off + 2 := by omega
  simp [readRgb, storeRgb, store, h1, h2, h3]

theorem readRgb_storeRgb_ne (m : Mem) (off off' : Int) (p : Rgb)
    (h : off' + 3 ≤ off ∨ off + 3 ≤ off') :
    readRgb (storeRgb m off p) off' = readRgb m off' := by
  simp only [readRgb]
  rw [storeRgb_frame _ _ _ _ (by omega), storeRgb_frame _ _ _ _ (by omega),
    storeRgb_frame _ _ _ _ (by omega)]

/-! ## The pixels of a row -/

/-- First column of the eight-column block that contains column `c ≥ 2`. -/
def blockStart (c : Int) : Int := 2 + 8 * ((c - 2) / 8)

/-- Lane of column `c` in its block. -/
def blockLane (c : Int) : Fin 4 := ⟨(((c - 2) % 8) / 2).toNat, by omega⟩

/-- The batch pixel of column `c`. -/
def batchPixel (row up dn : Mem) (ev od : Nat) (c : Int) : Rgb :=
  let q := batchQuads row up dn ev od (blockStart c)
  if c % 2 = 0 then q.1.pixel (blockLane c) else q.2.pixel (blockLane c)

/-- Colour type of column `c`. -/
def columnType (ev od : Nat) (c : Int) : Nat := if c % 2 = 0 then ev else od

/-- The pixel `neonRow` stores at column `c`. -/
def columnPixel (row up dn : Mem) (w : Int) (ev od : Nat) (c : Int) : Rgb :=
  if c = 0 then edgePixel row up dn ev
  else if c = 1 then scalarPixel row up dn od 1
  else if blockStart c + 8 ≤ w - 2 then batchPixel row up dn ev od c
  else scalarPixel row up dn (columnType ev od c) c

/-- Number of columns `neonRow` stores: the last two of an even row are left out. -/
def written (w : Int) : Int := if w ≤ 3 then 2 else if w % 2 = 1 then w - 1 else w - 2

/-- Columns `0..x` hold their pixels and the rest of the buffer is untouched. -/
def Painted (pix : Int → Rgb) (rgb : Mem) (base x : Int) (m : Mem) : Prop :=
  (∀ c, 0 ≤ c → c < x → readRgb m (base + 3 * c) = pix c) ∧
  (∀ i, i < base ∨ base + 3 * x ≤ i → m i = rgb i)

theorem Painted.storeRgb {pix : Int → Rgb} {rgb m : Mem} {base x : Int} {off : Int} {p : Rgb}
    (h : Painted pix rgb base x m) (hoff : off = base + 3 * x) (hx : 0 ≤ x) (hp : p = pix x) :
    Painted pix rgb base (x + 1) (storeRgb m off p) := by
  subst hoff
  constructor
  · intro c h0 hc
    by_cases e : c = x
    · rw [e, readRgb_storeRgb, hp]
    · rw [readRgb_storeRgb_ne _ _ _ _ (by omega)]
      exact h.1 c h0 (by omega)
  · intro i hi
    rw [storeRgb_frame _ _ _ _ (by omega)]
    exact h.2 i (by omega)

theorem Painted.pair {pix : Int → Rgb} {rgb m : Mem} {base x y : Int} {p q : Rgb} {off off' : Int}
    (h : Painted pix rgb base x m) (hx : 0 ≤ x) (hy : y = x + 2) (ho : off = base + 3 * x)
    (ho' : off' = base + 3 * (x + 1)) (hp : p = pix x) (hq : q = pix (x + 1)) :
    Painted pix rgb base y (Demosaic.storeRgb (Demosaic.storeRgb m off p) off' q) := by
  have e : y = x + 1 + 1 := by omega
  rw [e]
  exact (h.storeRgb ho hx hp).storeRgb ho' (by omega) hq

section Row

variable (row up dn : Mem) (w : Int) (ev od : Nat)

theorem columnPixel_batch_even {x : Int} (h2 : 2 ≤ x) (h8 : x % 8 = 2) (hb : x + 8 ≤ w - 2)
    (i : Fin 4) : columnPixel row up dn w ev od (x + 2 * (i : Nat)) =
      (batchQuads row up dn ev od x).1.pixel i := by
  have hs : blockStart (x + 2 * (i : Nat)) = x := by unfold blockStart; omega
  have hl : blockLane (x + 2 * (i : Nat)) = i := by
    apply Fin.ext
    simp only [blockLane]
    omega
  rw [columnPixel, if_neg (by omega), if_neg (by omega), hs, if_pos hb, batchPixel, hs, hl]
  exact if_pos (by omega)

theorem columnPixel_batch_odd {x : Int} (h2 : 2 ≤ x) (h8 : x % 8 = 2) (hb : x + 8 ≤ w - 2)
    (i : Fin 4) : columnPixel row up dn w ev od (x + 2 * (i : Nat) + 1) =
      (batchQuads row up dn ev od x).2.pixel i := by
  have hs : blockStart (x + 2 * (i : Nat) + 1) = x := by unfold blockStart; omega
  have hl : blockLane (x + 2 * (i : Nat) + 1) = i := by
    apply Fin.ext
    simp only [blockLane]
    omega
  rw [columnPixel, if_neg (by omega), if_neg (by omega), hs, if_pos hb, batchPixel, hs, hl]
  exact if_neg (by omega)

theorem columnPixel_scalar {c : Int} (h2 : 2 ≤ c) (hb : w - 2 < blockStart c + 8) :
    columnPixel row up dn w ev od c = scalarPixel row up dn (columnType ev od c) c := by
  rw [columnPixel, if_neg (by omega), if_neg (by omega), if_neg (by omega)]

variable {row up dn w ev od} {rgb m : Mem} {base x : Int}

theorem storePair_painted (h2 : 2 ≤ x) (h8 : x % 8 = 2) (hb : x + 8 ≤ w - 2) (i : Fin 4) {y z : Int}
    (hy : y = x + 2 * (i : Nat)) (hz : z = y + 2)
    (h : Painted (columnPixel row up dn w ev od) rgb base y m) :
    Painted (columnPixel row up dn w ev od) rgb base z
      (storePair (batchQuads row up dn ev od x).1 (batchQuads row up dn ev od x).2 base x m i) := by
  subst hy
  exact h.pair (by omega) hz (by omega) (by omega)
    (columnPixel_batch_even row up dn w ev od h2 h8 hb i).symm
    (columnPixel_batch_odd row up dn w ev od h2 h8 hb i).symm

theorem batch_painted (h2 : 2 ≤ x) (h8 : x % 8 = 2) (hb : x + 8 ≤ w - 2)
    (h : Painted (columnPixel row up dn w ev od) rgb base x m) :
    Painted (columnPixel row up dn w ev od) rgb base (x + 8) (batch row up dn base ev od x m) := by
  have h0 := storePair_painted h2 h8 hb 0 (z := x + 2) (by simp) rfl h
  have h1 := storePair_painted h2 h8 hb 1 (z := x + 4) (by simp) (by omega) h0
  have h2' := storePair_painted h2 h8 hb 2 (z := x + 6) (by simp) (by omega) h1
  exact storePair_painted h2 h8 hb 3 rfl (by omega) h2'

theorem remainder_painted (h2 : 2 ≤ x) (he : x % 2 = 0) (hb : w - 2 < blockStart x + 8)
    (h : Painted (columnPixel row up dn w ev od) rgb base x m) :
    Painted (columnPixel row up dn w ev od) rgb base (x + 2)
      (remainder row up dn base ev od x m) := by
  have ho : w - 2 < blockStart (x + 1) + 8 := by unfold blockStart at *; omega
  refine h.pair (by omega) rfl (by omega) (by omega) ?_ ?_
  · rw [columnPixel_scalar row up dn w ev od h2 hb, columnType, if_pos he]
  · rw [columnPixel_scalar row up dn w ev od (by omega) ho, columnType, if_neg (by omega)]

theorem columns01_painted (row up dn rgb : Mem) (w base : Int) (ev od : Nat) :
    Painted (columnPixel row up dn w ev od) rgb base 2
      (storeRgb (storeRgb rgb base (edgePixel row up dn ev)) (base + 3)
        (scalarPixel row up dn od 1)) := by
  have h0 : Painted (columnPixel row up dn w ev od) rgb base 0 rgb :=
    ⟨fun c h0 hc => by omega, fun _ _ => rfl⟩
  exact h0.pair (by omega) (by omega) (by omega) (by omega) (by simp [columnPixel])
    (by simp [columnPixel])

/-- The batch loop stops at a column `x` of the same block phase, with less than
a block left before `w - 2`. -/
theorem batches_painted (row up dn rgb : Mem) (w base : Int) (ev od : Nat) (m : Mem)
    (h : Painted (columnPixel row up dn w ev od) rgb base 2 m) :
    let l := forLoop (fun x => x + 8 ≤ w - 2) 8 (batch row up dn base ev od) w.toNat 2 m
    Painted (columnPixel row up dn w ev od) rgb base l.1 l.2 ∧
      2 ≤ l.1 ∧ l.1 % 8 = 2 ∧ w - 2 < l.1 + 8 ∧ (l.1 = 2 ∨ l.1 ≤ w - 2) := by
  have := forLoop_while (fun x => x + 8 ≤ w - 2) 8 w
    (batch row up dn base ev od)
    (fun x m => Painted (columnPixel row up dn w ev od) rgb base x m ∧ 2 ≤ x ∧ x % 8 = 2 ∧
      (x = 2 ∨ x ≤ w - 2))
    (by omega) (fun x hx => by omega)
    (fun x m hc ⟨hp, h2, h8, _⟩ => ⟨batch_painted h2 h8 hc hp, by omega, by omega, by omega⟩)
    w.toNat 2 m (by omega) ⟨h, by omega, by omega, by omega⟩
  intro l
  obtain ⟨⟨hp, h2, h8, hle⟩, hexit⟩ := this
  have hexit : ¬ l.1 + 8 ≤ w - 2 := hexit
  exact ⟨hp, h2, h8, by omega, hle⟩

/-- **Row specification.**  `neonRow` stores `columnPixel` in the first
`written w` columns and changes no other byte. -/
theorem neonRow_spec (row up dn rgb : Mem) (w base : Int) (ev od : Nat) :
    Painted (columnPixel row up dn w ev od) rgb base (written w)
      (neonRow row up dn rgb w base ev od) := by
  obtain ⟨hp, h2, h8, hlt, hle⟩ := batches_painted row up dn rgb w base ev od _
    (columns01_painted row up dn rgb w base ev od)
  simp only [neonRow]
  generalize forLoop _ _ _ _ _ _ = l at hp h2 h8 hlt hle
  obtain ⟨x, m⟩ := l
  simp only at hp h2 h8 hlt hle ⊢
  have hrem := forLoop_while (fun x => x < w - 2) 2 w
    (remainder row up dn base ev od)
    (fun y m => Painted (columnPixel row up dn w ev od) rgb base y m ∧ x ≤ y ∧ y % 2 = 0 ∧
      (y = x ∨ y < w))
    (by omega) (fun x hx => by omega)
    (fun y m hc ⟨hp, hxy, he, _⟩ =>
      ⟨remainder_painted (by omega) he (by unfold blockStart; omega) hp,
        by omega, by omega, by omega⟩)
    w.toNat x m (by omega) ⟨hp, by omega, by omega, by omega⟩
  generalize forLoop _ _ _ _ _ _ = l at hrem ⊢
  obtain ⟨⟨hp, hxy, he, hlt⟩, hexit⟩ := hrem
  have hend : l.1 = written w := by unfold written; split <;> [skip; split] <;> omega
  rwa [hend] at hp

end Row

/-! ## Lanes against formulas -/

theorem clamp_toNat (n : Nat) (h : n < 256) : (clamp n).toNat = n := by
  have hs : (n : Int) >>> (8 : Nat) = 0 := by
    rw [Int.shiftRight_eq_div_pow]
    omega
  simp only [clamp, hs, ne_eq, not_true_eq_false, ↓reduceIte]
  rw [BitVec.toNat_ofInt]
  omega

theorem px_lt (row : Mem) (i : Int) : px row i < 256 := (row i).isLt

section Lanes

variable (mem : Mem) (a : Int) (j : Fin 8)

/-- Unzipping a register with itself repeats its even lanes after lane 3. -/
theorem uzp_even_lane : (vuzp (vld1 mem a) (vld1 mem a)).1 j = mem (a + (2 * (j : Nat)) % 8) := by
  have hj := j.isLt
  by_cases h : 2 * (j : Nat) < 8
  · simp only [vuzp, pairLane_left _ _ h, vld1]
    congr 1
    omega
  · simp only [vuzp, pairLane_right (n := 8) _ _ (by omega : 8 ≤ 2 * (j : Nat)) (by omega), vld1]
    congr 1
    omega

theorem uzp_odd_lane :
    (vuzp (vld1 mem a) (vld1 mem a)).2 j = mem (a + (2 * (j : Nat) + 1) % 8) := by
  have hj := j.isLt
  by_cases h : 2 * (j : Nat) + 1 < 8
  · simp only [vuzp, pairLane_left _ _ h, vld1]
    congr 1
    omega
  · simp only [vuzp, pairLane_right (n := 8) _ _ (by omega : 8 ≤ 2 * (j : Nat) + 1) (by omega), vld1]
    congr 1
    omega

/-- The four lanes a batch uses are far from the end, so `vext` by one never
reaches its second operand. -/
theorem ext_lane (u v : Vec 8 8) (i : Fin 4) :
    vext u v 1 (i.castLE (by decide)) = u ⟨i + 1, by omega⟩ := by
  have h : (i : Nat) + 1 < 8 := by omega
  simp [vext, pairLane_left _ _ h]

end Lanes

/-- The column `vext` brings to lane `i` of the batch at `x`: the next even
column, except in the last lane, where it wraps to `x`. -/
def nextEven (x : Int) (i : Fin 4) : Int := x + (2 * (i : Nat) + 2) % 8

/-- The samples for which the even column `x + 2i` of a batch gets its scalar pixel. -/
def EvenAgrees (row up dn : Mem) (type : Nat) (x : Int) (i : Fin 4) : Prop :=
  let c := x + 2 * (i : Nat)
  match type with
  | 0 => True
  | 1 => (px row c + px row (nextEven x i) + 1) / 2 = (px row (c - 1) + px row (c + 1)) / 2 ∧
      (px up (c + 1) + px dn (c + 1)) / 2 = (px up c + px dn c) / 2
  | 2 => (px row (c - 1) + px row (c + 1)) % 2 = 0
  | _ => True

/-- The samples for which the odd column `x + 2i + 1` of a batch gets its scalar pixel. -/
def OddAgrees (row up dn : Mem) (type : Nat) (x : Int) (i : Fin 4) : Prop :=
  let c := x + 2 * (i : Nat) + 1
  let n := nextEven x i
  let fourSums :=
    (px row (c - 1) + px row n + px up c + px dn c) / 4 =
      (px row (c - 1) + px row (c + 1) + px up c + px dn c) / 4 ∧
    (px up (c - 1) + px dn (c - 1) + px up n + px dn n) / 4 =
      (px up (c - 1) + px dn (c - 1) + px up (c + 1) + px dn (c + 1)) / 4
  match type with
  | 0 => fourSums
  | 1 => (px row (c - 1) + px row n + 1) / 2 = (px row (c - 1) + px row (c + 1)) / 2
  | 2 => (px up c + px dn c) / 2 = (px row (c - 1) + px row (c + 1)) / 2
  | _ => fourSums

/-- Lane `i` of a batch register, as a number. -/
def lane (v : Vec 8 8) (i : Fin 4) : Nat := (lanes4 v i).toNat

section Agreement

variable (row up dn : Mem) (x : Int) (i : Fin 4)

theorem lane_even (mem : Mem) (a : Int) :
    lane (vuzp (vld1 mem a) (vld1 mem a)).1 i = px mem (a + 2 * (i : Nat)) := by
  simp only [lane, lanes4, uzp_even_lane, px]
  congr 2
  simp only [Fin.val_castLE]
  omega

theorem lane_odd (mem : Mem) (a : Int) :
    lane (vuzp (vld1 mem a) (vld1 mem a)).2 i = px mem (a + 2 * (i : Nat) + 1) := by
  simp only [lane, lanes4, uzp_odd_lane, px]
  congr 2
  simp only [Fin.val_castLE]
  omega

theorem lane_ext_even (mem : Mem) (v : Vec 8 8) :
    lane (vext (vuzp (vld1 mem x) (vld1 mem x)).1 v 1) i = px mem (nextEven x i) := by
  simp only [lane, lanes4, ext_lane, uzp_even_lane, px, nextEven]
  congr 2

theorem lane_ext_odd (mem : Mem) (v : Vec 8 8) :
    lane (vext (vuzp (vld1 mem (x - 1)) (vld1 mem (x - 1))).2 v 1) i = px mem (nextEven x i) := by
  simp only [lane, lanes4, ext_lane, uzp_odd_lane, px, nextEven]
  congr 2
  omega

theorem lane_avg2 (a b : Vec 8 8) : lane (vshrn (vaddl a b) 1) i = (lane a i + lane b i) / 2 :=
  avg2_toNat a b _ (by decide)

theorem lane_avg4 (a b c d : Vec 8 8) :
    lane (vshrn (vaddq (vaddl a b) (vaddl c d)) 2) i =
      (lane a i + lane b i + lane c i + lane d i) / 4 :=
  avg4_toNat a b c d _ (by decide)

theorem lane_rhadd (a b : Vec 8 8) : lane (vrhadd a b) i = (lane a i + lane b i + 1) / 2 :=
  vrhadd_toNat a b _

/-- A stored lane equals a clamped in-range value exactly when the numbers agree. -/
theorem lanes4_eq_clamp (v : Vec 8 8) (n : Nat) (h : n < 256) :
    lanes4 v i = clamp n ↔ lane v i = n := by
  rw [← BitVec.toNat_inj, clamp_toNat n h]
  rfl

theorem left_col (k : Int) : x - 1 + k = x + k - 1 := by omega
theorem right_col (k : Int) : x + 1 + k = x + k + 1 := by omega

/-- Comparing two pixels channel by channel, on numbers. -/
theorem quad_pixel_eq_iff (r g b : Vec 8 8) (rv gv bv : Nat)
    (hr : rv < 256) (hg : gv < 256) (hb : bv < 256) :
    (Quad.mk (lanes4 r) (lanes4 g) (lanes4 b)).pixel i = ⟨clamp rv, clamp gv, clamp bv⟩ ↔
      lane r i = rv ∧ lane g i = gv ∧ lane b i = bv := by
  simp only [Quad.pixel, Rgb.mk.injEq]
  rw [lanes4_eq_clamp i r rv hr, lanes4_eq_clamp i g gv hg, lanes4_eq_clamp i b bv hb]

theorem even_lane_iff (ev od : Nat) :
    (batchQuads row up dn ev od x).1.pixel i = scalarPixel row up dn ev (x + 2 * (i : Nat)) ↔
      EvenAgrees row up dn ev x i := by
  have hr := px_lt row
  have hu := px_lt up
  have hd := px_lt dn
  match ev with
  | 0 =>
    simp only [batchQuads, scalarPixel, EvenAgrees, Nat.shiftRight_eq_div_pow, iff_true]
    rw [quad_pixel_eq_iff _ _ _ _ _ _ _ (by grind) (by grind) (by grind)]
    simp only [lane_avg4, lane_even, lane_odd, left_col, right_col, Int.sub_add_cancel, true_and]
    omega
  | 1 =>
    simp only [batchQuads, scalarPixel, EvenAgrees, Nat.shiftRight_eq_div_pow]
    rw [quad_pixel_eq_iff _ _ _ _ _ _ _ (by grind) (by grind) (by grind)]
    simp only [lane_avg2, lane_rhadd, lane_ext_odd, lane_odd, left_col, Int.sub_add_cancel,
      true_and, Nat.pow_one]
  | 2 =>
    simp only [batchQuads, scalarPixel, EvenAgrees, Nat.shiftRight_eq_div_pow]
    rw [quad_pixel_eq_iff _ _ _ _ _ _ _ (by grind) (by grind) (by grind)]
    simp only [lane_avg2, lane_rhadd, lane_even, lane_odd, left_col, right_col,
      Int.sub_add_cancel, true_and]
    omega
  | _ + 3 =>
    simp only [batchQuads, scalarPixel, EvenAgrees, Nat.shiftRight_eq_div_pow, iff_true]
    rw [quad_pixel_eq_iff _ _ _ _ _ _ _ (by grind) (by grind) (by grind)]
    simp only [lane_avg4, lane_even, lane_odd, left_col, right_col, Int.sub_add_cancel, and_true]
    omega

theorem odd_lane_iff (ev od : Nat) :
    (batchQuads row up dn ev od x).2.pixel i = scalarPixel row up dn od (x + 2 * (i : Nat) + 1) ↔
      OddAgrees row up dn od x i := by
  have hr := px_lt row
  have hu := px_lt up
  have hd := px_lt dn
  match od with
  | 0 =>
    simp only [batchQuads, scalarPixel, OddAgrees, Nat.shiftRight_eq_div_pow]
    rw [quad_pixel_eq_iff _ _ _ _ _ _ _ (by grind) (by grind) (by grind)]
    simp only [lane_avg4, lane_ext_odd, lane_ext_even, lane_even, lane_odd, left_col, right_col,
      Int.sub_add_cancel, Int.add_sub_cancel, true_and]
    omega
  | 1 =>
    simp only [batchQuads, scalarPixel, OddAgrees, Nat.shiftRight_eq_div_pow]
    rw [quad_pixel_eq_iff _ _ _ _ _ _ _ (by grind) (by grind) (by grind)]
    simp only [lane_avg2, lane_rhadd, lane_ext_odd, lane_even, lane_odd, left_col, right_col,
      Int.sub_add_cancel, Int.add_sub_cancel, and_true, Nat.pow_one]
  | 2 =>
    simp only [batchQuads, scalarPixel, OddAgrees, Nat.shiftRight_eq_div_pow]
    rw [quad_pixel_eq_iff _ _ _ _ _ _ _ (by grind) (by grind) (by grind)]
    simp only [lane_avg2, lane_even, lane_odd, right_col, Int.add_sub_cancel, true_and, Nat.pow_one]
  | _ + 3 =>
    simp only [batchQuads, scalarPixel, OddAgrees, Nat.shiftRight_eq_div_pow]
    rw [quad_pixel_eq_iff _ _ _ _ _ _ _ (by grind) (by grind) (by grind)]
    simp only [lane_avg4, lane_ext_odd, lane_ext_even, lane_even, lane_odd, left_col, right_col,
      Int.sub_add_cancel, Int.add_sub_cancel, and_true]
    omega

/-- Every full batch of a row of width `w` agrees with the scalar formulas. -/
def RowAgrees (w : Int) (ev od : Nat) : Prop :=
  ∀ x, 2 ≤ x → x % 8 = 2 → x + 8 ≤ w - 2 → ∀ i : Fin 4,
    EvenAgrees row up dn ev x i ∧ OddAgrees row up dn od x i

end Agreement

/-- **Fast path against slow path.**  Every interior column gets the pixel of the
scalar remainder formulas exactly when the samples of every full batch agree. -/
theorem neonRow_scalar_iff (row up dn rgb : Mem) (w base : Int) (ev od : Nat) :
    (∀ c, 2 ≤ c → c < w - 2 →
      readRgb (neonRow row up dn rgb w base ev od) (base + 3 * c) =
        scalarPixel row up dn (columnType ev od c) c) ↔
      RowAgrees row up dn w ev od := by
  have hpix : ∀ c, 2 ≤ c → c < w - 2 →
      readRgb (neonRow row up dn rgb w base ev od) (base + 3 * c) =
        columnPixel row up dn w ev od c := by
    intro c h2 hc
    exact (neonRow_spec row up dn rgb w base ev od).1 c (by omega)
      (by unfold written; split <;> [skip; split] <;> omega)
  constructor
  · intro h x h2 h8 hb i
    -- the two columns of lane `i`, read through the hypothesis and through the batch
    have he := h (x + 2 * (i : Nat)) (by omega) (by omega)
    have ho := h (x + 2 * (i : Nat) + 1) (by omega) (by omega)
    rw [hpix _ (by omega) (by omega), columnPixel_batch_even row up dn w ev od h2 h8 hb,
      columnType, if_pos (by omega)] at he
    rw [hpix _ (by omega) (by omega), columnPixel_batch_odd row up dn w ev od h2 h8 hb,
      columnType, if_neg (by omega)] at ho
    exact ⟨(even_lane_iff row up dn x i ev od).mp he, (odd_lane_iff row up dn x i ev od).mp ho⟩
  · intro h c h2 hc
    rw [hpix c h2 hc]
    by_cases hb : blockStart c + 8 ≤ w - 2
    · obtain ⟨he, ho⟩ := h (blockStart c) (by unfold blockStart; omega)
        (by unfold blockStart; omega) hb (blockLane c)
      rw [columnPixel, if_neg (by omega), if_neg (by omega), if_pos hb, batchPixel, columnType]
      have hl : ((blockLane c : Fin 4) : Nat) = (((c - 2) % 8) / 2).toNat := rfl
      by_cases hp : c % 2 = 0
      · have e : blockStart c + 2 * ((blockLane c : Fin 4) : Nat) = c := by
          rw [hl]; unfold blockStart; omega
        simp only [hp, ↓reduceIte]
        rw [(even_lane_iff row up dn _ _ ev od).mpr he, e]
      · have e : blockStart c + 2 * ((blockLane c : Fin 4) : Nat) + 1 = c := by
          rw [hl]; unfold blockStart; omega
        simp only [hp, ↓reduceIte]
        rw [(odd_lane_iff row up dn _ _ ev od).mpr ho, e]
    · exact columnPixel_scalar row up dn w ev od h2 (by omega)

/-- A dark row with one sample of value 1. -/
def spot (k : Int) : Mem := fun i => if i = k then 1 else 0

/-- RGGB without offsets, as the camera device configures it. -/
def rggb (width height : BitVec 16) : DemosaicParams := ⟨width, height, 3, 0, 0, 0⟩

/-- Row 2 of an RGGB frame has types R and G1.  With sample 1 at column 2 of a
twelve-column row, the batch stores red 1 at column 3 and the scalar formula 0. -/
theorem neonRow_rounding_differs :
    rowTypes (fun _ => 0) (rggb 12 5) 2 = (0, 1) ∧
    readRgb (neonRow (spot 2) (spot (-1)) (spot (-1)) (spot (-1)) 12 0 0 1) (0 + 3 * 3) ≠
      scalarPixel (spot 2) (spot (-1)) (spot (-1)) (columnType 0 1 3) 3 := by
  decide

end MochaHal.Demosaic
