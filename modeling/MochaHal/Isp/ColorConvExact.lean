import MochaHal.Isp.ColorConvBounds

/-! What the colour conversions write.  A pixel's reference value is an integer
formula on its three bytes; the vector lanes and the remainder loops are both
shown to compute it without losing a bit, and the loops over columns and rows
then fill their planes with it (`Fills`).

* `rgbToNv12_exact`: BT.601 in both planes of the NV12 picture.
* `rgbToRgbaWbGamma_exact`: gain, table and flip of the RGBA picture. -/

namespace MochaHal.ColorConv
open MochaHal.Loop MochaHal.Neon MochaHal.Demosaic MochaHal.Stores

theorem ptr_of_lt {off : Int} (h0 : 0 ≤ off) (h1 : off < 2 ^ 32) : ptr off = off :=
  Int.emod_eq_of_lt h0 h1

theorem fills_store {a : Int} {val : Int → Byte} {v : Byte} (h : v = val a) :
    Fills a (a + 1) val (fun m => store m a v) := by
  intro m o
  simp only [store]
  grind

/-! ## BT.601 on one pixel -/

/-- The weighted sum of the components, rounded, scaled down and biased. -/
def bt601Value (cr cg cb bias : Int) (r g b : Byte) : Int :=
  ((cr * r.toNat + cg * g.toNat + cb * b.toNat + 128) >>> (8 : Nat)) + bias

def yValue : Byte → Byte → Byte → Int := bt601Value 66 129 25 16

def uValue : Byte → Byte → Byte → Int := bt601Value (-38) (-74) 112 128

def vValue : Byte → Byte → Byte → Int := bt601Value 112 (-94) (-18) 128

theorem yValue_bounds (r g b : Byte) : 16 ≤ yValue r g b ∧ yValue r g b ≤ 235 := by
  have hr := r.isLt
  have hg := g.isLt
  have hb := b.isLt
  simp only [yValue, bt601Value, Int.shiftRight_eq_div_pow]
  omega

theorem uValue_bounds (r g b : Byte) : 16 ≤ uValue r g b ∧ uValue r g b ≤ 240 := by
  have hr := r.isLt
  have hg := g.isLt
  have hb := b.isLt
  simp only [uValue, bt601Value, Int.shiftRight_eq_div_pow]
  omega

theorem vValue_bounds (r g b : Byte) : 16 ≤ vValue r g b ∧ vValue r g b ≤ 240 := by
  have hr := r.isLt
  have hg := g.isLt
  have hb := b.isLt
  simp only [vValue, bt601Value, Int.shiftRight_eq_div_pow]
  omega

/-- The 32-bit sums of the vector code, before rounding. -/
def bt601Acc (cr cg cb : Int) (r g b : Vec 8 8) : Vec 8 32 :=
  let acc : Vec 8 32 := vmullS (vdup (BitVec.ofInt 16 cr)) (vmovl r : Vec 8 16)
  let acc : Vec 8 32 := vmlalS acc (vdup (BitVec.ofInt 16 cg)) (vmovl g : Vec 8 16)
  vmlalS acc (vdup (BitVec.ofInt 16 cb)) (vmovl b : Vec 8 16)

/-- The 16-bit lanes after the narrowing shift. -/
def bt601Narrow (cr cg cb : Int) (r g b : Vec 8 8) : Vec 8 16 :=
  vshrn (vaddq (bt601Acc cr cg cb r g b) (vdup 128)) 8

/-- The 16-bit lanes that the last instruction saturates. -/
def bt601Wide (cr cg cb bias : Int) (r g b : Vec 8 8) : Vec 8 16 :=
  vaddq (bt601Narrow cr cg cb r g b) (vdup (BitVec.ofInt 16 bias))

theorem bt601Lanes_eq (cr cg cb bias : Int) (r g b : Vec 8 8) :
    bt601Lanes cr cg cb bias r g b = vqmovun (bt601Wide cr cg cb bias r g b) := rfl

/-- **No step of lane `i` changes a value**: accumulating, rounding, narrowing,
biasing and saturating all give the integer that the formula asks for. -/
structure LaneExact (cr cg cb bias : Int) (r g b : Vec 8 8) (i : Fin 8) : Prop where
  acc : (bt601Acc cr cg cb r g b i).toInt =
    cr * (r i).toNat + cg * (g i).toNat + cb * (b i).toNat
  narrow : (bt601Narrow cr cg cb r g b i).toInt =
    (cr * (r i).toNat + cg * (g i).toNat + cb * (b i).toNat + 128) >>> (8 : Nat)
  wide : (bt601Wide cr cg cb bias r g b i).toInt = bt601Value cr cg cb bias (r i) (g i) (b i)
  lane : ((bt601Lanes cr cg cb bias r g b i).toNat : Int) =
    bt601Value cr cg cb bias (r i) (g i) (b i)

section Lanes
variable {cr cg cb bias : Int}

theorem toInt_ofInt_small {c : Int} (h : -255 ≤ c ∧ c ≤ 255) : (BitVec.ofInt 16 c).toInt = c := by
  rw [BitVec.toInt_ofInt]
  exact Int.bmod_eq_of_le_mul_two (by omega) (by omega)

theorem product_bounds {c : Int} (h : -255 ≤ c ∧ c ≤ 255) (v : Byte) :
    -65025 ≤ c * v.toNat ∧ c * v.toNat ≤ 65025 := by
  have hlt := v.isLt
  constructor <;> nlinarith

/-- A coefficient times a byte, as one lane computes it. -/
theorem product_toInt {c : Int} (h : -255 ≤ c ∧ c ≤ 255) (v : Vec 8 8) (i : Fin 8) :
    (vmullS (vdup (BitVec.ofInt 16 c)) (vmovl v : Vec 8 16) i).toInt = c * (v i).toNat := by
  have hv : (vmovl v i).toInt = (v i).toNat := vmovl_toInt v i (by decide)
  have hbounds := product_bounds h (v i)
  have := vmullS_toInt (vdup (BitVec.ofInt 16 c)) (vmovl v : Vec 8 16) i
  rw [vdup_apply, toInt_ofInt_small h, hv] at this
  exact this (by omega) (by omega)

theorem bt601_laneExact (hcr : -255 ≤ cr ∧ cr ≤ 255) (hcg : -255 ≤ cg ∧ cg ≤ 255)
    (hcb : -255 ≤ cb ∧ cb ≤ 255) (hbias : -255 ≤ bias ∧ bias ≤ 255) (r g b : Vec 8 8) (i : Fin 8)
    (hval : 0 ≤ bt601Value cr cg cb bias (r i) (g i) (b i) ∧
      bt601Value cr cg cb bias (r i) (g i) (b i) ≤ 255) : LaneExact cr cg cb bias r g b i := by
  have hr := product_bounds hcr (r i)
  have hg := product_bounds hcg (g i)
  have hb := product_bounds hcb (b i)
  have hacc : (bt601Acc cr cg cb r g b i).toInt =
      cr * (r i).toNat + cg * (g i).toNat + cb * (b i).toNat := by
    simp only [bt601Acc, vmlalS]
    rw [vaddq_toInt, vaddq_toInt] <;> simp only [product_toInt hcr, product_toInt hcg,
      product_toInt hcb]
    any_goals omega
    all_goals rw [vaddq_toInt] <;> simp only [product_toInt hcr, product_toInt hcg] <;> omega
  have hround : (vaddq (bt601Acc cr cg cb r g b) (vdup 128) i).toInt =
      cr * (r i).toNat + cg * (g i).toNat + cb * (b i).toNat + 128 := by
    have h128 : (128 : BitVec 32).toInt = 128 := by decide
    rw [vaddq_toInt] <;> rw [vdup_apply, hacc, h128]
    all_goals omega
  simp only [bt601Value, Int.shiftRight_eq_div_pow] at hval
  have hnarrow : (bt601Narrow cr cg cb r g b i).toInt =
      (cr * (r i).toNat + cg * (g i).toNat + cb * (b i).toNat + 128) >>> (8 : Nat) := by
    rw [bt601Narrow, vshrn_toInt _ (by decide)] <;> rw [hround]
    all_goals
      rw [Int.shiftRight_eq_div_pow]
      omega
  have hwide : (bt601Wide cr cg cb bias r g b i).toInt =
      bt601Value cr cg cb bias (r i) (g i) (b i) := by
    rw [bt601Wide, vaddq_toInt] <;> rw [vdup_apply, toInt_ofInt_small hbias, hnarrow]
    · rfl
    all_goals
      rw [Int.shiftRight_eq_div_pow]
      omega
  refine ⟨hacc, hnarrow, hwide, ?_⟩
  rw [bt601Lanes_eq, vqmovun_toNat] <;> rw [hwide]
  all_goals
    simp only [bt601Value, Int.shiftRight_eq_div_pow]
    omega

end Lanes

theorem yLanes_exact (r g b : Vec 8 8) (i : Fin 8) : LaneExact 66 129 25 16 r g b i := by
  have hval := yValue_bounds (r i) (g i) (b i)
  unfold yValue at hval
  exact bt601_laneExact (by decide) (by decide) (by decide) (by decide) r g b i (by omega)

theorem uLanes_exact (r g b : Vec 8 8) (i : Fin 8) : LaneExact (-38) (-74) 112 128 r g b i := by
  have hval := uValue_bounds (r i) (g i) (b i)
  unfold uValue at hval
  exact bt601_laneExact (by decide) (by decide) (by decide) (by decide) r g b i (by omega)

theorem vLanes_exact (r g b : Vec 8 8) (i : Fin 8) : LaneExact 112 (-94) (-18) 128 r g b i := by
  have hval := vValue_bounds (r i) (g i) (b i)
  unfold vValue at hval
  exact bt601_laneExact (by decide) (by decide) (by decide) (by decide) r g b i (by omega)

theorem byte_eq_ofInt {v : Byte} {z : Int} (h : (v.toNat : Int) = z) : v = BitVec.ofInt 8 z := by
  rw [← h, BitVec.ofInt_natCast, BitVec.ofNat_toNat, BitVec.setWidth_eq]

theorem toNat_ofInt_byte {z : Int} (h0 : 0 ≤ z) (h1 : z ≤ 255) :
    ((BitVec.ofInt 8 z).toNat : Int) = z := by
  rw [BitVec.toNat_ofInt]
  omega

/-- A lane holds the byte that the remainder loop would store. -/
theorem LaneExact.lane_eq {cr cg cb bias : Int} {r g b : Vec 8 8} {i : Fin 8}
    (h : LaneExact cr cg cb bias r g b i) {rgb : Mem} {p : Int} (hr : r i = rgb p)
    (hg : g i = rgb (p + 1)) (hb : b i = rgb (p + 2)) :
    bt601Lanes cr cg cb bias r g b i = bt601 cr cg cb bias rgb p := by
  rw [byte_eq_ofInt h.lane, hr, hg, hb]
  rfl

/-! ## The Y plane -/

/-- The byte at offset `o` of the Y plane. -/
def yByte (rgb : Mem) (yPlane o : Int) : Byte := bt601 66 129 25 16 rgb ((o - yPlane) * 3)

section YPlane
variable {rgb : Mem} {yPlane rowBase x width height y : Int}

theorem yBatch_fills (h0 : 0 ≤ yPlane + rowBase + x) (h1 : yPlane + rowBase + x + 8 ≤ 2 ^ 32) :
    Fills (yPlane + rowBase + x) (yPlane + rowBase + (x + 8)) (yByte rgb yPlane)
      (yBatch rgb yPlane rowBase x) := by
  rw [show yPlane + rowBase + (x + 8) = yPlane + rowBase + x + (8 : Nat) by push_cast; omega]
  unfold yBatch
  rw [ptr_of_lt h0 (by omega)]
  apply fills_vst1
  intro i
  refine (yLanes_exact _ _ _ i).lane_eq ?_ ?_ ?_
  all_goals
    congr 1
    omega

theorem yPixel_fills (h0 : 0 ≤ yPlane + rowBase + x) (h1 : yPlane + rowBase + x + 1 ≤ 2 ^ 32) :
    Fills (yPlane + rowBase + x) (yPlane + rowBase + (x + 1)) (yByte rgb yPlane)
      (yPixel rgb yPlane rowBase x) := by
  rw [show yPlane + rowBase + (x + 1) = yPlane + rowBase + x + 1 by omega]
  unfold yPixel
  rw [ptr_of_lt h0 (by omega)]
  apply fills_store
  rw [yByte]
  congr 1
  omega

theorem yRow_fills (hw : 0 ≤ width) (h0 : 0 ≤ yPlane + y * width)
    (h1 : yPlane + y * width + width ≤ 2 ^ 32) :
    Fills (yPlane + y * width) (yPlane + (y + 1) * width) (yByte rgb yPlane)
      (yRow rgb yPlane width y) := by
  have hrow : Fills (yPlane + y * width + 0) (yPlane + y * width + width) (yByte rgb yPlane)
      (yRow rgb yPlane width y) := by
    refine updates_forLoop₂ (fun x => yPlane + y * width + x) (by decide) (by decide) (by decide)
      (by intros; omega) hw (by simp) (fun _ hG => hG) (fun _ _ => Iff.rfl) ?_ ?_ _ (by omega)
    · intro x hx _ hG
      exact yBatch_fills (by omega) (by omega)
    · intro x hx _ hG
      exact yPixel_fills (by omega) (by omega)
  exact hrow.reindex (by omega) (by linarith)

theorem yPlane_fills (hw : 0 ≤ width) (hh : 0 ≤ height) (h0 : 0 ≤ yPlane)
    (h1 : yPlane + height * width ≤ 2 ^ 32) :
    Fills yPlane (yPlane + height * width) (yByte rgb yPlane) (fun out =>
      (forLoop (fun y => y < height) 1 (yRow rgb yPlane width) height.toNat 0 out).2) := by
  have hrows : Fills (yPlane + 0 * width) (yPlane + height * width) (yByte rgb yPlane) (fun out =>
      (forLoop (fun y => y < height) 1 (yRow rgb yPlane width) height.toNat 0 out).2) := by
    refine updates_forLoop (fun y => yPlane + y * width) (by decide) ?_ hh (by simp)
      (fun _ _ => Iff.rfl) ?_ (by omega)
    · intro i j hij
      have := Int.mul_le_mul_of_nonneg_right hij hw
      omega
    · intro y hy _ hG
      have hbase : 0 ≤ y * width := Int.mul_nonneg hy hw
      have hlast : (y + 1) * width ≤ height * width :=
        Int.mul_le_mul_of_nonneg_right (by omega) hw
      exact yRow_fills hw (by omega) (by linarith)
  exact hrows.reindex (by omega) rfl

end YPlane

/-! ## The UV plane -/

/-- The byte in column `j` of chroma row `y / 2`: the even columns hold U, the odd
ones V, both of the picture's pixel in column `2 * (j / 2)` of row `y`. -/
def uvRowByte (rgb : Mem) (width y j : Int) : Byte :=
  if j % 2 = 0 then bt601 (-38) (-74) 112 128 rgb ((y * width + j) * 3)
  else bt601 112 (-94) (-18) 128 rgb ((y * width + (j - 1)) * 3)

section UvPlane
variable {rgb : Mem} {uvPlane width height y x : Int}

theorem uvBatch_fills (hx : x % 2 = 0) (h0 : 0 ≤ uvPlane + y / 2 * width + x)
    (h1 : uvPlane + y / 2 * width + x + 16 ≤ 2 ^ 32) :
    Fills (uvPlane + y / 2 * width + x) (uvPlane + y / 2 * width + (x + 16))
      (fun o => uvRowByte rgb width y (o - (uvPlane + y / 2 * width)))
      (uvBatch rgb uvPlane width y x) := by
  have h16 : Fills (uvPlane + y / 2 * width + x) (uvPlane + y / 2 * width + x + (2 * 8 : Nat))
      (fun o => uvRowByte rgb width y (o - (uvPlane + y / 2 * width)))
      (uvBatch rgb uvPlane width y x) := by
    unfold uvBatch
    dsimp only [vst2]
    rw [ptr_of_lt h0 (by omega)]
    apply fills_vst1
    intro i
    have hcol : uvPlane + y / 2 * width + x + (i : Nat) - (uvPlane + y / 2 * width) =
      x + (i : Nat) := by omega
    rw [hcol]
    simp only [interleave, uvRowByte]
    by_cases hi : i.val % 2 = 0
    · rw [if_pos hi, if_pos (by omega)]
      refine (uLanes_exact _ _ _ _).lane_eq ?_ ?_ ?_
      all_goals
        simp only [vld3]
        congr 1
        omega
    · rw [if_neg hi, if_neg (by omega)]
      refine (vLanes_exact _ _ _ _).lane_eq ?_ ?_ ?_
      all_goals
        simp only [vld3]
        congr 1
        omega
  exact h16.reindex rfl (by push_cast; omega)

theorem uvPixel_fills (hx : x % 2 = 0) (h0 : 0 ≤ uvPlane + y / 2 * width + x)
    (h1 : uvPlane + y / 2 * width + x + 2 ≤ 2 ^ 32) :
    Fills (uvPlane + y / 2 * width + x) (uvPlane + y / 2 * width + (x + 2))
      (fun o => uvRowByte rgb width y (o - (uvPlane + y / 2 * width)))
      (uvPixel rgb uvPlane width y x) := by
  have hu : Fills (uvPlane + y / 2 * width + x) (uvPlane + y / 2 * width + x + 1)
      (fun o => uvRowByte rgb width y (o - (uvPlane + y / 2 * width)))
      (fun m => store m (ptr (uvPlane + (y / 2 * width + x)))
        (bt601 (-38) (-74) 112 128 rgb ((y * width + x) * 3))) := by
    rw [show uvPlane + (y / 2 * width + x) = uvPlane + y / 2 * width + x by omega,
      ptr_of_lt h0 (by omega)]
    apply fills_store
    rw [uvRowByte, if_pos (by omega)]
    congr 1
    omega
  have hv : Fills (uvPlane + y / 2 * width + x + 1) (uvPlane + y / 2 * width + x + 1 + 1)
      (fun o => uvRowByte rgb width y (o - (uvPlane + y / 2 * width)))
      (fun m => store m (ptr (uvPlane + (y / 2 * width + x) + 1))
        (bt601 112 (-94) (-18) 128 rgb ((y * width + x) * 3))) := by
    rw [show uvPlane + (y / 2 * width + x) + 1 = uvPlane + y / 2 * width + x + 1 by omega,
      ptr_of_lt (by omega) (by omega)]
    apply fills_store
    rw [uvRowByte, if_neg (by omega)]
    congr 1
    omega
  exact (hu.append hv (by omega) (by omega)).reindex rfl (by omega)

theorem uvRow_fills (hw : 0 ≤ width) (heven : width % 2 = 0) (h0 : 0 ≤ uvPlane + y / 2 * width)
    (h1 : uvPlane + y / 2 * width + width ≤ 2 ^ 32) :
    Fills (uvPlane + y / 2 * width) (uvPlane + y / 2 * width + width)
      (fun o => uvRowByte rgb width y (o - (uvPlane + y / 2 * width)))
      (uvRow rgb uvPlane width y) := by
  have hrow : Fills (uvPlane + y / 2 * width + 0) (uvPlane + y / 2 * width + width)
      (fun o => uvRowByte rgb width y (o - (uvPlane + y / 2 * width)))
      (uvRow rgb uvPlane width y) := by
    refine updates_forLoop₂ (fun x => uvPlane + y / 2 * width + x) (by decide) (by decide) (by decide)
      (by intros; omega) hw (by omega) (fun _ hG => hG) ?_ ?_ ?_ _ (by omega)
    · intro x hd
      -- on even columns the `break` is never taken before the guard fails
      constructor
      · exact fun h => h.1
      · exact fun h => ⟨h, by omega⟩
    · intro x hx hd hG
      exact uvBatch_fills (by omega) (by omega) (by omega)
    · intro x hx hd hG
      exact uvPixel_fills (by omega) (by omega) (by omega)
  exact hrow.reindex (by omega) rfl

/-- The byte at offset `o` of the UV plane. -/
def uvByte (rgb : Mem) (uvPlane width o : Int) : Byte :=
  uvRowByte rgb width (2 * ((o - uvPlane) / width)) ((o - uvPlane) % width)

theorem uvByte_at {cy j : Int} (hj : 0 ≤ j) (hjw : j < width) :
    uvByte rgb uvPlane width (uvPlane + cy * width + j) = uvRowByte rgb width (2 * cy) j := by
  have hdiv : (uvPlane + cy * width + j - uvPlane) / width = cy ∧
      (uvPlane + cy * width + j - uvPlane) % width = j := by
    rw [Int.ediv_emod_unique (by omega)]
    exact ⟨by linarith, hj, hjw⟩
  rw [uvByte, hdiv.1, hdiv.2]

theorem uvPlane_fills (hw : 0 ≤ width) (heven : width % 2 = 0) (hh : 0 ≤ height) (h0 : 0 ≤ uvPlane)
    (h1 : uvPlane + (height + 1) / 2 * width ≤ 2 ^ 32) :
    Fills uvPlane (uvPlane + (height + 1) / 2 * width) (uvByte rgb uvPlane width) (fun out =>
      (forLoop (fun y => y < height) 2 (uvRow rgb uvPlane width) height.toNat 0 out).2) := by
  have hrows : Fills (uvPlane + 0 / 2 * width) (uvPlane + (height + height % 2) / 2 * width)
      (uvByte rgb uvPlane width) (fun out =>
        (forLoop (fun y => y < height) 2 (uvRow rgb uvPlane width) height.toNat 0 out).2) := by
    refine updates_forLoop (fun y => uvPlane + y / 2 * width) (by decide) ?_ (by omega) (by omega)
      (by omega) ?_ ?_
    · intro i j hij
      have := Int.mul_le_mul_of_nonneg_right (show i / 2 ≤ j / 2 by omega) hw
      omega
    · intro y hy hd hG
      have hbase : 0 ≤ y / 2 * width := Int.mul_nonneg (by omega) hw
      have hlast : (y / 2 + 1) * width ≤ (height + 1) / 2 * width :=
        Int.mul_le_mul_of_nonneg_right (by omega) hw
      have hnext : (y + 2) / 2 * width = y / 2 * width + width := by
        rw [show (y + 2) / 2 = y / 2 + 1 by omega]
        linarith
      have hrow : Fills (uvPlane + y / 2 * width) (uvPlane + y / 2 * width + width)
          (uvByte rgb uvPlane width) (uvRow rgb uvPlane width y) := by
        refine (uvRow_fills hw heven (by omega) (by linarith)).congr ?_
        intro o ho ho' _
        have hat : uvByte rgb uvPlane width
            (uvPlane + y / 2 * width + (o - (uvPlane + y / 2 * width))) = _ :=
          uvByte_at (by omega) (by omega)
        rw [show uvPlane + y / 2 * width + (o - (uvPlane + y / 2 * width)) = o by omega,
          show 2 * (y / 2) = y by omega] at hat
        exact hat.symm
      exact hrow.reindex rfl (by omega)
    · omega
  exact hrows.reindex (by omega) (by rw [show (height + height % 2) / 2 = (height + 1) / 2 by omega])

end UvPlane

/-! ## The NV12 picture -/

/-- The pixel in column `x` of row `y`. -/
def pixelAt (rgb : Mem) (width x y : Int) : Rgb :=
  let p := (y * width + x) * 3
  ⟨rgb p, rgb (p + 1), rgb (p + 2)⟩

/-- Both planes lie in the address space and do not overlap. -/
structure Planes (width height yPlane uvPlane : Int) : Prop where
  y_start : 0 ≤ yPlane
  y_end : yPlane + height * width ≤ 2 ^ 32
  uv_start : 0 ≤ uvPlane
  uv_end : uvPlane + (height + 1) / 2 * width ≤ 2 ^ 32
  disjoint : yPlane + height * width ≤ uvPlane ∨ uvPlane + (height + 1) / 2 * width ≤ yPlane

/-- `m` holds the BT.601 picture of `rgb`: every byte of the Y plane and every
pair of the UV plane has the value of its pixel. -/
structure IsNv12 (rgb : Mem) (width height yPlane uvPlane : Int) (m : Mem) : Prop where
  y : ∀ x y, 0 ≤ x → x < width → 0 ≤ y → y < height →
    let p := pixelAt rgb width x y
    let b : Int := (m (yPlane + y * width + x)).toNat
    b = yValue p.r p.g p.b ∧ 16 ≤ b ∧ b ≤ 235
  u : ∀ cx cy, 0 ≤ cx → cx < width / 2 → 0 ≤ cy → cy < (height + 1) / 2 →
    let p := pixelAt rgb width (2 * cx) (2 * cy)
    let b : Int := (m (uvPlane + cy * width + 2 * cx)).toNat
    b = uValue p.r p.g p.b ∧ 16 ≤ b ∧ b ≤ 240
  v : ∀ cx cy, 0 ≤ cx → cx < width / 2 → 0 ≤ cy → cy < (height + 1) / 2 →
    let p := pixelAt rgb width (2 * cx) (2 * cy)
    let b : Int := (m (uvPlane + cy * width + (2 * cx + 1))).toNat
    b = vValue p.r p.g p.b ∧ 16 ≤ b ∧ b ≤ 240

theorem y_toNat (rgb : Mem) (q : Int) :
    let b : Int := (bt601 66 129 25 16 rgb q).toNat
    b = yValue (rgb q) (rgb (q + 1)) (rgb (q + 2)) ∧ 16 ≤ b ∧ b ≤ 235 := by
  have hb := yValue_bounds (rgb q) (rgb (q + 1)) (rgb (q + 2))
  have heq : ((bt601 66 129 25 16 rgb q).toNat : Int) = _ :=
    toNat_ofInt_byte (Int.le_trans (by decide) hb.1) (Int.le_trans hb.2 (by decide))
  exact ⟨heq, heq ▸ hb.1, heq ▸ hb.2⟩

theorem u_toNat (rgb : Mem) (q : Int) :
    let b : Int := (bt601 (-38) (-74) 112 128 rgb q).toNat
    b = uValue (rgb q) (rgb (q + 1)) (rgb (q + 2)) ∧ 16 ≤ b ∧ b ≤ 240 := by
  have hb := uValue_bounds (rgb q) (rgb (q + 1)) (rgb (q + 2))
  have heq : ((bt601 (-38) (-74) 112 128 rgb q).toNat : Int) = _ :=
    toNat_ofInt_byte (Int.le_trans (by decide) hb.1) (Int.le_trans hb.2 (by decide))
  exact ⟨heq, heq ▸ hb.1, heq ▸ hb.2⟩

theorem v_toNat (rgb : Mem) (q : Int) :
    let b : Int := (bt601 112 (-94) (-18) 128 rgb q).toNat
    b = vValue (rgb q) (rgb (q + 1)) (rgb (q + 2)) ∧ 16 ≤ b ∧ b ≤ 240 := by
  have hb := vValue_bounds (rgb q) (rgb (q + 1)) (rgb (q + 2))
  have heq : ((bt601 112 (-94) (-18) 128 rgb q).toNat : Int) = _ :=
    toNat_ofInt_byte (Int.le_trans (by decide) hb.1) (Int.le_trans hb.2 (by decide))
  exact ⟨heq, heq ▸ hb.1, heq ▸ hb.2⟩

theorem isNv12_of_bytes {rgb : Mem} {width height yPlane uvPlane : Int} {m : Mem}
    (hy : ∀ x y, 0 ≤ x → x < width → 0 ≤ y → y < height →
      m (yPlane + y * width + x) = bt601 66 129 25 16 rgb ((y * width + x) * 3))
    (huv : ∀ j cy, 0 ≤ j → j < width → 0 ≤ cy → cy < (height + 1) / 2 →
      m (uvPlane + cy * width + j) = uvRowByte rgb width (2 * cy) j) :
    IsNv12 rgb width height yPlane uvPlane m := by
  constructor
  · intro x y hx hxw hy0 hyh
    rw [hy x y hx hxw hy0 hyh]
    exact y_toNat rgb _
  · intro cx cy hx hxw hy0 hyh
    rw [huv (2 * cx) cy (by omega) (by omega) hy0 hyh, uvRowByte, if_pos (by omega)]
    exact u_toNat rgb _
  · intro cx cy hx hxw hy0 hyh
    rw [huv (2 * cx + 1) cy (by omega) (by omega) hy0 hyh, uvRowByte, if_neg (by omega),
      show 2 * cx + 1 - 1 = 2 * cx by omega]
    exact v_toNat rgb _

/-- **BT.601 everywhere.**  The vector lanes and the remainder loops write one
formula into every byte of both planes and no other byte, and no lane loses a bit. -/
theorem rgbToNv12_exact (c : ColorConvNEON) (rgb out : Mem) (yPlane uvPlane : Int)
    (hinit : c.mInitialized = true) (heven : c.mWidth.toNat % 2 = 0)
    (hp : Planes c.mWidth.toNat c.mHeight.toNat yPlane uvPlane) :
    IsNv12 rgb c.mWidth.toNat c.mHeight.toNat yPlane uvPlane
      (c.rgbToNv12 (some rgb) yPlane uvPlane out) ∧
    ∀ (r g b : Vec 8 8) (i : Fin 8), LaneExact 66 129 25 16 r g b i ∧
      LaneExact (-38) (-74) 112 128 r g b i ∧ LaneExact 112 (-94) (-18) 128 r g b i := by
  refine ⟨?_, fun r g b i => ⟨yLanes_exact r g b i, uLanes_exact r g b i, vLanes_exact r g b i⟩⟩
  have hY := @yPlane_fills rgb _ _ _ (by omega) (by omega) hp.y_start hp.y_end
  have hUV := @uvPlane_fills rgb _ _ _ (by omega) (by omega) (by omega) hp.uv_start hp.uv_end
  have hdis := hp.disjoint
  have hW : (0 : Int) ≤ c.mWidth.toNat := by omega
  simp only [ColorConvNEON.rgbToNv12, hinit]
  generalize (c.mWidth.toNat : Int) = w at *
  generalize (c.mHeight.toNat : Int) = h at *
  apply isNv12_of_bytes
  · intro x y hx hxw hy0 hyh
    have hbase : 0 ≤ y * w := Int.mul_nonneg hy0 hW
    have hlast : (y + 1) * w ≤ h * w := Int.mul_le_mul_of_nonneg_right (by omega) hW
    have hin : yPlane + y * w + x < yPlane + h * w := by linarith
    refine (hUV.outside (by omega)).trans ((hY.inside (by omega) hin).trans ?_)
    rw [yByte]
    congr 1
    omega
  · intro j cy hj hjw hy0 hyh
    have hbase : 0 ≤ cy * w := Int.mul_nonneg hy0 hW
    have hlast : (cy + 1) * w ≤ (h + 1) / 2 * w := Int.mul_le_mul_of_nonneg_right (by omega) hW
    exact (hUV.inside (by omega) (by linarith)).trans (uvByte_at hj hjw)

theorem planes_4x3 : Planes 4 3 0 12 := by
  constructor <;> decide

/-- A 4x3 picture with the UV plane right after the Y plane. -/
theorem rgbToNv12_exact_4x3 : ( ColorConvNEON.initialize .new 4 3).1 = 0 ∧
    IsNv12 (BitVec.ofInt 8) 4 3 0 12
      (( ColorConvNEON.initialize .new 4 3).2.rgbToNv12 (some (BitVec.ofInt 8)) 0 12 fun _ => 0) :=
  ⟨rfl, (rgbToNv12_exact ( ColorConvNEON.initialize .new 4 3).2 (BitVec.ofInt 8) (fun _ => 0) 0 12
    rfl rfl planes_4x3).1⟩

/-! ## The RGBA picture -/

/-- A component scaled by a Q8 gain, rounded and clamped. -/
def wbValue (gain : Int) (c : Byte) : Int := min 255 ((c.toNat * gain + 128) >>> (8 : Nat))

/-- The 32-bit products of the vector code with the rounding term added. -/
def wbSum (gain : Int) (c : Vec 8 8) : Vec 8 32 :=
  vaddq (vmullU (vmovl c : Vec 8 16) (vdup (BitVec.ofInt 16 gain))) (vdup 128)

/-- **No step of lane `i` loses a bit**: neither the 32-bit sum nor its narrowing to
16 bits, and the saturation is the clamp of the formula. -/
structure WbLaneExact (gain : Int) (c : Vec 8 8) (i : Fin 8) : Prop where
  sum : ((wbSum gain c i).toNat : Int) = (c i).toNat * gain + 128
  narrow : (((vshrn (wbSum gain c) 8 : Vec 8 16) i).toNat : Int) =
    ((c i).toNat * gain + 128) >>> (8 : Nat)
  lane : ((wbLanes gain c i).toNat : Int) = wbValue gain (c i)

section Rgba
variable {gain : Int}

theorem gain_toNat (h0 : 0 ≤ gain) (h1 : gain ≤ 65535) : ((BitVec.ofInt 16 gain).toNat : Int) = gain := by
  rw [BitVec.toNat_ofInt]
  omega

theorem wbLanes_exact (h0 : 0 ≤ gain) (h1 : gain ≤ 65535) (c : Vec 8 8) (i : Fin 8) :
    WbLaneExact gain c i := by
  have hlt : ((c i).toNat : Int) ≤ 255 := by
    have := (c i).isLt
    omega
  have hprod : 0 ≤ (c i).toNat * gain ∧ (c i).toNat * gain ≤ 255 * 65535 := by
    constructor
    · positivity
    · exact Int.mul_le_mul hlt h1 h0 (by decide)
  have hsum : ((wbSum gain c i).toNat : Int) = (c i).toNat * gain + 128 := by
    have hmul : ((vmullU (vmovl c : Vec 8 16) (vdup (BitVec.ofInt 16 gain)) i).toNat : Int) =
        (c i).toNat * gain := by
      rw [vmullU_toNat, vmovl_toNat, vdup_apply, Int.natCast_mul, gain_toNat h0 h1]
    have h128 : (128 : BitVec 32).toNat = 128 := by decide
    rw [wbSum, vaddq_toNat, vdup_apply, h128]
    omega
  have hnarrow : (((vshrn (wbSum gain c) 8 : Vec 8 16) i).toNat : Int) =
      ((c i).toNat * gain + 128) >>> (8 : Nat) := by
    rw [vshrn_toNat, Int.shiftRight_eq_div_pow]
    omega
  refine ⟨hsum, hnarrow, ?_⟩
  have hlane : (wbLanes gain c i).toNat =
      min ((vshrn (wbSum gain c) 8 : Vec 8 16) i).toNat (2 ^ 8 - 1) := vqmovn_toNat _ i
  rw [hlane, wbValue]
  omega

theorem wbLanes_toNat (h : 0 ≤ gain ∧ gain ≤ 65535) (c : Vec 8 8) (i : Fin 8) {v : Byte}
    (hv : c i = v) : (wbLanes gain c i).toNat = (wbValue gain v).toNat := by
  have := (wbLanes_exact h.1 h.2 c i).lane
  rw [← hv]
  omega

theorem wbScalar_eq (lut : Nat → Byte) (c : Byte) :
    wbScalar lut gain c.toNat = lut (wbValue gain c).toNat := by
  simp only [wbScalar, wbValue]
  congr 1
  grind

end Rgba

/-- The byte in column `j` of an output row: four components a pixel. -/
def rgbaRowByte (rgb : Mem) (gains : Int × Int × Int) (lut : Nat → Byte) (width srcRow j : Int) :
    Byte :=
  let p := pixelAt rgb width (j / 4) srcRow
  if j % 4 = 0 then lut (wbValue gains.1 p.r).toNat
  else if j % 4 = 1 then lut (wbValue gains.2.1 p.g).toNat
  else if j % 4 = 2 then lut (wbValue gains.2.2 p.b).toNat
  else 255

/-- Gains that sixteen bits hold. -/
structure Q8Gains (gains : Int × Int × Int) : Prop where
  r : 0 ≤ gains.1 ∧ gains.1 ≤ 65535
  g : 0 ≤ gains.2.1 ∧ gains.2.1 ≤ 65535
  b : 0 ≤ gains.2.2 ∧ gains.2.2 ≤ 65535

section RgbaRows
variable {rgb : Mem} {gains : Int × Int × Int} {lut : Nat → Byte} {width height srcRow y x : Int}

theorem rgbaBatch_fills (hg : Q8Gains gains) (hx : 0 ≤ y * (width * 4) + x * 4)
    (hend : y * (width * 4) + x * 4 + 32 ≤ 2 ^ 32) :
    Fills (y * (width * 4) + x * 4) (y * (width * 4) + (x + 8) * 4)
      (fun o => rgbaRowByte rgb gains lut width srcRow (o - y * (width * 4)))
      (rgbaBatch rgb gains lut width srcRow y x) := by
  have h32 : Fills (y * (width * 4) + x * 4) (y * (width * 4) + x * 4 + (32 : Nat))
      (fun o => rgbaRowByte rgb gains lut width srcRow (o - y * (width * 4)))
      (rgbaBatch rgb gains lut width srcRow y x) := by
    unfold rgbaBatch
    dsimp only
    rw [ptr_of_lt hx (by omega)]
    apply fills_vst1
    intro i
    have hcol : y * (width * 4) + x * 4 + (i : Nat) - y * (width * 4) = x * 4 + (i : Nat) := by omega
    have hpix : (x * 4 + (i : Nat)) / 4 = x + ((i.val / 4 : Nat) : Int) := by omega
    rw [hcol]
    simp only [rgbaBuf, rgbaRowByte, pixelAt, hpix]
    by_cases h0 : i.val % 4 = 0
    · rw [if_pos h0, if_pos (by omega)]
      refine congrArg lut (wbLanes_toNat hg.r _ _ ?_)
      dsimp only [vld3]
      congr 1
      omega
    by_cases h1 : i.val % 4 = 1
    · rw [if_neg h0, if_pos h1, if_neg (by omega), if_pos (by omega)]
      refine congrArg lut (wbLanes_toNat hg.g _ _ ?_)
      dsimp only [vld3]
      congr 1
      omega
    by_cases h2 : i.val % 4 = 2
    · rw [if_neg h0, if_neg h1, if_pos h2, if_neg (by omega), if_neg (by omega), if_pos (by omega)]
      refine congrArg lut (wbLanes_toNat hg.b _ _ ?_)
      dsimp only [vld3]
      congr 1
      omega
    · rw [if_neg h0, if_neg h1, if_neg h2, if_neg (by omega), if_neg (by omega), if_neg (by omega)]
  exact h32.reindex rfl (by push_cast; omega)

theorem rgbaPixel_fills (hx : 0 ≤ y * (width * 4) + x * 4)
    (hend : y * (width * 4) + x * 4 + 4 ≤ 2 ^ 32) :
    Fills (y * (width * 4) + x * 4) (y * (width * 4) + (x + 1) * 4)
      (fun o => rgbaRowByte rgb gains lut width srcRow (o - y * (width * 4)))
      (rgbaPixel rgb gains lut width srcRow y x) := by
  -- the four stores one after the other
  have hstore (k k' : Int) (hk : 0 ≤ k ∧ k < 4 ∧ k' = k + 1) {v : Byte}
      (hv : v = rgbaRowByte rgb gains lut width srcRow (x * 4 + k)) :
      Fills (y * (width * 4) + x * 4 + k) (y * (width * 4) + x * 4 + k')
        (fun o => rgbaRowByte rgb gains lut width srcRow (o - y * (width * 4)))
        (fun m => store m (ptr (y * (width * 4) + x * 4 + k)) v) := by
    rw [ptr_of_lt (by omega) (by omega)]
    refine (fills_store ?_).reindex rfl (by omega)
    rw [hv]
    congr 1
    omega
  have hcomp (k : Int) (hk : 0 ≤ k ∧ k < 4) : (x * 4 + k) / 4 = x ∧ (x * 4 + k) % 4 = k := by omega
  have hr : wbScalar lut gains.1 (px rgb ((srcRow * width + x) * 3)) =
      rgbaRowByte rgb gains lut width srcRow (x * 4 + 0) := by
    rw [rgbaRowByte, (hcomp 0 (by decide)).1, (hcomp 0 (by decide)).2]
    exact wbScalar_eq lut _
  have hgr : wbScalar lut gains.2.1 (px rgb ((srcRow * width + x) * 3 + 1)) =
      rgbaRowByte rgb gains lut width srcRow (x * 4 + 1) := by
    rw [rgbaRowByte, (hcomp 1 (by decide)).1, (hcomp 1 (by decide)).2]
    exact wbScalar_eq lut _
  have hb : wbScalar lut gains.2.2 (px rgb ((srcRow * width + x) * 3 + 2)) =
      rgbaRowByte rgb gains lut width srcRow (x * 4 + 2) := by
    rw [rgbaRowByte, (hcomp 2 (by decide)).1, (hcomp 2 (by decide)).2]
    exact wbScalar_eq lut _
  have ha : 255 = rgbaRowByte rgb gains lut width srcRow (x * 4 + 3) := by
    rw [rgbaRowByte, (hcomp 3 (by decide)).2]
    rfl
  have hall := (((hstore 0 1 (by decide) hr).append (hstore 1 2 (by decide) hgr) (by omega)
    (by omega)).append (hstore 2 3 (by decide) hb) (by omega) (by omega)).append
    (hstore 3 4 (by decide) ha) (by omega) (by omega)
  rw [Int.add_zero] at hall
  exact hall.reindex rfl (by omega)

theorem rgbaRow_fills {flipV : Bool} (hg : Q8Gains gains) (hw : 0 ≤ width) (hy : 0 ≤ y)
    (hend : (y + 1) * (width * 4) ≤ 2 ^ 32) :
    Fills (y * (width * 4)) ((y + 1) * (width * 4))
      (fun o => rgbaRowByte rgb gains lut width (if flipV then height - 1 - y else y)
        (o - y * (width * 4)))
      (rgbaRow rgb gains lut width height flipV y) := by
  have hbase : 0 ≤ y * (width * 4) := by positivity
  have hlast : (y + 1) * (width * 4) = y * (width * 4) + width * 4 := by ring
  have hrow : Fills (y * (width * 4) + 0 * 4) (y * (width * 4) + width * 4)
      (fun o => rgbaRowByte rgb gains lut width (if flipV then height - 1 - y else y)
        (o - y * (width * 4)))
      (rgbaRow rgb gains lut width height flipV y) := by
    refine updates_forLoop₂ (fun x => y * (width * 4) + x * 4) (by decide) (by decide) (by decide)
      (by intros; omega) hw (by simp) (fun _ hG => hG) (fun _ _ => Iff.rfl) ?_ ?_ _ (by omega)
    · intro x hx _ hG
      exact rgbaBatch_fills hg (by omega) (by omega)
    · intro x hx _ hG
      exact rgbaPixel_fills (by omega) (by omega)
  exact hrow.reindex (by omega) hlast.symm

/-- The byte at offset `o` of the RGBA picture. -/
def rgbaByte (rgb : Mem) (gains : Int × Int × Int) (lut : Nat → Byte) (width height : Int)
    (flipV : Bool) (o : Int) : Byte :=
  let y := o / (width * 4)
  rgbaRowByte rgb gains lut width (if flipV then height - 1 - y else y) (o % (width * 4))

theorem rgbaByte_at {flipV : Bool} {j : Int} (hj : 0 ≤ j) (hjw : j < width * 4) :
    rgbaByte rgb gains lut width height flipV (y * (width * 4) + j) =
      rgbaRowByte rgb gains lut width (if flipV then height - 1 - y else y) j := by
  have hdiv : (y * (width * 4) + j) / (width * 4) = y ∧ (y * (width * 4) + j) % (width * 4) = j := by
    rw [Int.ediv_emod_unique (by omega)]
    exact ⟨by linarith, hj, hjw⟩
  rw [rgbaByte, hdiv.1, hdiv.2]

theorem rgba_fills {flipV : Bool} (hg : Q8Gains gains) (hw : 0 ≤ width) (hh : 0 ≤ height)
    (hsize : height * (width * 4) ≤ 2 ^ 32) :
    Fills 0 (height * (width * 4)) (rgbaByte rgb gains lut width height flipV) (fun out =>
      (forLoop (fun y => y < height) 1 (rgbaRow rgb gains lut width height flipV) height.toNat 0
        out).2) := by
  have hrows : Fills (0 * (width * 4)) (height * (width * 4))
      (rgbaByte rgb gains lut width height flipV) (fun out =>
        (forLoop (fun y => y < height) 1 (rgbaRow rgb gains lut width height flipV) height.toNat 0
          out).2) := by
    refine updates_forLoop (fun y => y * (width * 4)) (by decide) ?_ hh (by simp)
      (fun _ _ => Iff.rfl) ?_ (by omega)
    · intro i j hij
      exact Int.mul_le_mul_of_nonneg_right hij (by omega)
    · intro y hy _ hG
      have hlast : (y + 1) * (width * 4) ≤ height * (width * 4) :=
        Int.mul_le_mul_of_nonneg_right (by omega) (by omega)
      refine (rgbaRow_fills hg hw hy (by omega)).congr ?_
      intro o ho ho' _
      have hnext : (y + 1) * (width * 4) = y * (width * 4) + width * 4 := by ring
      have hat : rgbaByte rgb gains lut width height flipV
          (y * (width * 4) + (o - y * (width * 4))) = _ := rgbaByte_at (by omega) (by omega)
      rw [show y * (width * 4) + (o - y * (width * 4)) = o by omega] at hat
      exact hat.symm
  exact hrows.reindex (by omega) rfl

end RgbaRows

/-- `m` holds the RGBA picture of `rgb` with gains, table and flip applied. -/
def IsRgba (rgb : Mem) (gains : Int × Int × Int) (lut : Nat → Byte) (width height : Int)
    (flipV : Bool) (m : Mem) : Prop :=
  ∀ x y, 0 ≤ x → x < width → 0 ≤ y → y < height →
    let p := pixelAt rgb width x (if flipV then height - 1 - y else y)
    let o := y * (width * 4) + x * 4
    m o = lut (wbValue gains.1 p.r).toNat ∧ m (o + 1) = lut (wbValue gains.2.1 p.g).toNat ∧
    m (o + 2) = lut (wbValue gains.2.2 p.b).toNat ∧ m (o + 3) = 255

theorem rgbToRgbaWbGamma_isRgba (rgb out : Mem) {width height : BitVec 32} {rGain gGain bGain : Rat}
    (gammaLut : Nat → Byte) (flipV : Bool)
    (hsize : 4 * (width.toNat : Int) * height.toNat ≤ 2 ^ 32)
    (hgains : Q8Gains (q8 rGain, q8 gGain, q8 bGain)) :
    IsRgba rgb (q8 rGain, q8 gGain, q8 bGain) gammaLut width.toNat height.toNat flipV
      (rgbToRgbaWbGamma (some rgb) width height rGain gGain bGain gammaLut flipV out) := by
  have hcells : (height.toNat : Int) * (width.toNat * 4) = 4 * (width.toNat : Int) * height.toNat := by
    ring
  have hfills : Fills 0 (height.toNat * (width.toNat * 4)) _
      (rgbToRgbaWbGamma (some rgb) width height rGain gGain bGain gammaLut flipV) :=
    rgba_fills hgains (by omega) (by omega) (by omega)
  intro x y hx hxw hy hyh
  have hbase : 0 ≤ y * ((width.toNat : Int) * 4) := by positivity
  have hlast : (y + 1) * ((width.toNat : Int) * 4) ≤ height.toNat * (width.toNat * 4) :=
    Int.mul_le_mul_of_nonneg_right (by omega) (by omega)
  have hnext : (y + 1) * ((width.toNat : Int) * 4) = y * (width.toNat * 4) + width.toNat * 4 := by
    ring
  have hbyte (k : Int) (hk : 0 ≤ k ∧ k < 4) :
      rgbToRgbaWbGamma (some rgb) width height rGain gGain bGain gammaLut flipV out
        (y * (width.toNat * 4) + x * 4 + k) =
      rgbaRowByte rgb (q8 rGain, q8 gGain, q8 bGain) gammaLut width.toNat
        (if flipV then height.toNat - 1 - y else y) (x * 4 + k) := by
    refine (hfills.inside (by omega) (by omega)).trans ?_
    rw [Int.add_assoc]
    exact rgbaByte_at (by omega) (by omega)
  have hpix (k : Int) (hk : 0 ≤ k ∧ k < 4) : (x * 4 + k) / 4 = x ∧ (x * 4 + k) % 4 = k := by omega
  have h0 := hbyte 0 (by decide)
  rw [Int.add_zero, rgbaRowByte, (hpix 0 (by decide)).1, (hpix 0 (by decide)).2] at h0
  have h1 := hbyte 1 (by decide)
  rw [rgbaRowByte, (hpix 1 (by decide)).1, (hpix 1 (by decide)).2] at h1
  have h2 := hbyte 2 (by decide)
  rw [rgbaRowByte, (hpix 2 (by decide)).1, (hpix 2 (by decide)).2] at h2
  have h3 := hbyte 3 (by decide)
  rw [rgbaRowByte, (hpix 3 (by decide)).2] at h3
  exact ⟨h0, h1, h2, h3⟩

/-- **The fused pass equals its reference** in vector and remainder columns alike. -/
theorem rgbToRgbaWbGamma_exact (rgb out : Mem) (width height : BitVec 32) (rGain gGain bGain : Rat)
    (gammaLut : Nat → Byte) (flipV : Bool)
    (hsize : 4 * (width.toNat : Int) * height.toNat < 2 ^ 31)
    (hgains : Q8Gains (q8 rGain, q8 gGain, q8 bGain)) :
    IsRgba rgb (q8 rGain, q8 gGain, q8 bGain) gammaLut width.toNat height.toNat flipV
      (rgbToRgbaWbGamma (some rgb) width height rGain gGain bGain gammaLut flipV out) ∧
    ∀ (c : Vec 8 8) (i : Fin 8), WbLaneExact (q8 rGain) c i ∧ WbLaneExact (q8 gGain) c i ∧
      WbLaneExact (q8 bGain) c i := by
  constructor
  · exact rgbToRgbaWbGamma_isRgba rgb out gammaLut flipV (by omega) hgains
  · exact fun c i => ⟨wbLanes_exact hgains.r.1 hgains.r.2 c i,
      wbLanes_exact hgains.g.1 hgains.g.2 c i, wbLanes_exact hgains.b.1 hgains.b.2 c i⟩

theorem q8Gains_mixed : Q8Gains (q8 1, q8 (3 / 2), q8 (511 / 2)) := by
  constructor <;> decide +kernel

/-- An 11x2 picture, flipped: one batch and three remainder columns a row. -/
theorem rgbToRgbaWbGamma_exact_11x2 : (q8 1, q8 (3 / 2), q8 (511 / 2)) = (256, 384, 65408) ∧
    IsRgba (BitVec.ofInt 8) (q8 1, q8 (3 / 2), q8 (511 / 2)) (BitVec.ofNat 8) 11 2 true
      (rgbToRgbaWbGamma (some (BitVec.ofInt 8)) 11 2 1 (3 / 2) (511 / 2) (BitVec.ofNat 8) true
        fun _ => 0) :=
  ⟨by decide +kernel, (rgbToRgbaWbGamma_exact (BitVec.ofInt 8) (fun _ => 0) 11 2 1 (3 / 2) (511 / 2)
    (BitVec.ofNat 8) true (by decide) q8Gains_mixed).1⟩

end MochaHal.ColorConv
