import MochaHal.Lib.Access
import MochaHal.Camera.Tuning
import Mathlib.Algebra.BigOperators.Group.Finset.Basic
import Mathlib.Algebra.Order.BigOperators.Group.Finset

/-! The focus metric, plain and unrolled.  Both loops are run with a record of what they read
and of every sum they compute; both add up the same gradients (`sobel_metrics_agree`).  The
record of a gradient is that of the loads it is computed from (`gradientCode_spec`). -/

namespace MochaHal.Camera

open MochaHal.Loop MochaHal.Access MochaHal.Demosaic MochaHal.ColorConv

/-! ## The two functions -/

/-- The accumulator, the reads so far (the offset of the row and that in the row), and every
sum that was computed. -/
structure Metering where
  total : Int
  reads : List (Int × Int)
  sums : List Int

def gradientReads (base x : Int) : List (Int × Int) := [(base, (x + 1) * 3 + 1), (base, (x - 1) * 3 + 1)]

/-- `total += g`. -/
def addGradient (row : Mem) (base x : Int) (m : Metering) : Metering :=
  let total := m.total + greenGradient row x
  ⟨total, m.reads ++ gradientReads base x, m.sums ++ [total]⟩

/-- `total += g0 + g1 + g2 + g3 + g4 + g5 + g6 + g7`. -/
def addChunk (row : Mem) (base x : Int) (m : Metering) : Metering :=
  let s1 := greenGradient row x + greenGradient row (x + 1)
  let s2 := s1 + greenGradient row (x + 2)
  let s3 := s2 + greenGradient row (x + 3)
  let s4 := s3 + greenGradient row (x + 4)
  let s5 := s4 + greenGradient row (x + 5)
  let s6 := s5 + greenGradient row (x + 6)
  let s7 := s6 + greenGradient row (x + 7)
  let total := m.total + s7
  ⟨total, m.reads ++ [0, 1, 2, 3, 4, 5, 6, 7].flatMap fun k => gradientReads base (x + k),
    m.sums ++ [s1, s2, s3, s4, s5, s6, s7, total]⟩

def rowAt (rgb : Mem) (base : Int) : Mem := fun i => rgb (base + i)

/-- One row of `sobelEnergy`. -/
def sobelRow (row : Mem) (base w : Int) (m : Metering) : Metering :=
  (forLoop (fun x => x < w - 1) 1 (addGradient row base) w.toNat 1 m).2

/-- One row of `sobelEnergyNw`. -/
def sobelRowNwAt (row : Mem) (base w : Int) (m : Metering) : Metering :=
  let (x, m) := forLoop (fun x => x + 8 < w - 1) 8 (addChunk row base) w.toNat 1 m
  (forLoop (fun x => x < w - 1) 1 (addGradient row base) w.toNat x m).2

/-- The rows of either function. -/
def sobelFrame (sobelRow : Mem → Int → Int → Metering → Metering) (rgb : Option Mem) (w h : Int) : Metering :=
  match rgb with
  | none => ⟨0, [], []⟩
  | some rgb =>
    if w < 3 ∨ h < 3 then ⟨0, [], []⟩
    else
      (forLoop (fun y => y < h - 1) 1 (fun y m => sobelRow (rowAt rgb (y * (w * 3))) (y * (w * 3)) w m) h.toNat 1
        ⟨0, [], []⟩).2

def sobelEnergyAt (rgb : Option Mem) (w h : Int) : Metering := sobelFrame sobelRow rgb w h

def sobelEnergyNwAt (rgb : Option Mem) (w h : Int) : Metering := sobelFrame sobelRowNwAt rgb w h

/-- `sobelEnergy`. -/
def sobelEnergy (rgb : Option Mem) (w h : Int) : Int := (sobelEnergyAt rgb w h).total

/-- A gradient from the bytes of the frame that it loads. -/
def gradientCode (base x : Int) : Code Unit 8 Int := do
  let right ← load () (base + ((x + 1) * 3 + 1))
  let left ← load () (base + ((x - 1) * 3 + 1))
  return ((right.toNat : Int) - left.toNat).natAbs

/-- The record of a gradient has the places that it loads, and the value is that of the loads. -/
theorem gradientCode_spec (rgb : Mem) (base x : Int) :
    (exec (gradientCode base x) fun _ => rgb).1 = greenGradient (rowAt rgb base) x ∧
      accesses (gradientCode base x) (fun _ => rgb) = (gradientReads base x).map fun r => ((), r.1 + r.2) :=
  ⟨rfl, rfl⟩

/-- The record does not change what is computed. -/
theorem sobelRowNwAt_total (row : Mem) (base w : Int) (m : Metering) :
    sobelRowNw row w m.total = (sobelRowNwAt row base w m).total := by
  unfold sobelRowNw sobelRowNwAt
  dsimp only
  rw [@forLoop_map _ _ _ _ _ (addChunk row base) Metering.total fun _ _ => rfl]
  rw [@forLoop_map _ _ _ _ _ (addGradient row base) Metering.total fun _ _ => rfl]

theorem sobelEnergyNwAt_total (rgb : Option Mem) (w h : Int) :
    sobelEnergyNw rgb w h = (sobelEnergyNwAt rgb w h).total := by
  unfold sobelEnergyNw sobelEnergyNwAt sobelFrame
  cases rgb with
  | none => rfl
  | some rgb =>
    dsimp only
    split
    · rfl
    · have hrow (y : Int) (m : Metering) := sobelRowNwAt_total (rowAt rgb (y * (w * 3))) (y * (w * 3)) w m
      exact congrArg Prod.snd (@forLoop_map _ _ (fun y => y < h - 1) 1 _ _ Metering.total hrow h.toNat 1 ⟨0, [], []⟩)

/-! ## The gradients of a frame -/

/-- The gradients of the first `n` columns. -/
def rowGradients (row : Mem) (n : Nat) : Int := ∑ k ∈ Finset.range n, greenGradient row (1 + k)

/-- The gradients of the first `n` rows. -/
def frameGradients (rgb : Mem) (w : Int) (n : Nat) : Int :=
  ∑ k ∈ Finset.range n, rowGradients (rowAt rgb ((1 + k) * (w * 3))) (w - 2).toNat

theorem greenGradient_nonneg (row : Mem) (x : Int) : 0 ≤ greenGradient row x := Int.natCast_nonneg _

theorem greenGradient_le (row : Mem) (x : Int) : greenGradient row x ≤ 255 := by
  unfold greenGradient px
  have := (row ((x + 1) * 3 + 1)).isLt
  have := (row ((x - 1) * 3 + 1)).isLt
  omega

theorem rowGradients_succ (row : Mem) (n : Nat) :
    rowGradients row (n + 1) = rowGradients row n + greenGradient row (1 + n) :=
  Finset.sum_range_succ _ _

theorem rowGradients_nonneg (row : Mem) (n : Nat) : 0 ≤ rowGradients row n :=
  Finset.sum_nonneg fun _ _ => greenGradient_nonneg row _

theorem rowGradients_le (row : Mem) (n : Nat) : rowGradients row n ≤ 255 * n := by
  induction n with
  | zero => exact Int.le_refl 0
  | succ n ih =>
    have := greenGradient_le row (1 + n)
    rw [rowGradients_succ]
    omega

theorem frameGradients_succ (rgb : Mem) (w : Int) (n : Nat) :
    frameGradients rgb w (n + 1) =
      frameGradients rgb w n + rowGradients (rowAt rgb ((1 + n) * (w * 3))) (w - 2).toNat :=
  Finset.sum_range_succ _ _

theorem frameGradients_nonneg (rgb : Mem) (w : Int) (n : Nat) : 0 ≤ frameGradients rgb w n :=
  Finset.sum_nonneg fun _ _ => rowGradients_nonneg _ _

theorem frameGradients_le (rgb : Mem) {w : Int} (hw : 2 ≤ w) (n : Nat) :
    frameGradients rgb w n ≤ 255 * (w - 2) * n := by
  induction n with
  | zero => exact Int.le_of_eq (Int.mul_zero _).symm
  | succ n ih =>
    have := rowGradients_le (rowAt rgb ((1 + n) * (w * 3))) (w - 2).toNat
    rw [frameGradients_succ, Nat.cast_succ, Int.mul_add, Int.mul_one]
    omega

/-! ## What a row does -/

/-- A row so far: the first `n` columns are added up, the sums are at most what all the
columns can add, and the reads are in the row. -/
structure RowDone (row : Mem) (base w : Int) (m₀ : Metering) (n : Nat) (m : Metering) : Prop where
  column : (n : Int) ≤ w - 2
  total : m.total = m₀.total + rowGradients row n
  reads : ∀ r ∈ m.reads, r ∈ m₀.reads ∨ r.1 = base ∧ 0 ≤ r.2 ∧ r.2 < w * 3
  sums : ∀ v ∈ m.sums, v ∈ m₀.sums ∨ 0 ≤ v ∧ v ≤ m₀.total + 255 * (w - 2)

section

variable {row : Mem} {base w : Int} {m₀ m : Metering} {n : Nat}

theorem gradientReads_inside {x : Int} (hx : 1 ≤ x) (hxw : x < w - 1) :
    ∀ r ∈ gradientReads base x, r.1 = base ∧ 0 ≤ r.2 ∧ r.2 < w * 3 := by
  intro r hr
  simp only [gradientReads, List.mem_cons, List.not_mem_nil, or_false] at hr
  rcases hr with rfl | rfl
  · exact ⟨rfl, by dsimp only; omega, by dsimp only; omega⟩
  · exact ⟨rfl, by dsimp only; omega, by dsimp only; omega⟩

/-- What is added up so far is one of the sums that are allowed. -/
theorem total_range (hm₀ : 0 ≤ m₀.total) (hn : (n : Int) ≤ w - 2) :
    0 ≤ m₀.total + rowGradients row n ∧ m₀.total + rowGradients row n ≤ m₀.total + 255 * (w - 2) := by
  have := rowGradients_nonneg row n
  have := rowGradients_le row n
  omega

theorem RowDone.gradient (hm₀ : 0 ≤ m₀.total) (hn : 1 + (n : Int) < w - 1) (h : RowDone row base w m₀ n m) :
    RowDone row base w m₀ (n + 1) (addGradient row base (1 + n) m) := by
  have hn' : ((n + 1 : Nat) : Int) ≤ w - 2 := by omega
  have htotal : m.total + greenGradient row (1 + n) = m₀.total + rowGradients row (n + 1) := by
    rw [h.total, rowGradients_succ, Int.add_assoc]
  refine ⟨hn', htotal, fun r hr => ?_, fun v hv => ?_⟩
  · rcases List.mem_append.mp hr with hr | hr
    · exact h.reads r hr
    · exact .inr (gradientReads_inside (by omega) hn r hr)
  · rcases List.mem_append.mp hv with hv | hv
    · exact h.sums v hv
    · rw [List.mem_singleton.mp hv, htotal]
      exact .inr (total_range hm₀ hn')

theorem rowGradients_eight (row : Mem) (n : Nat) :
    rowGradients row (n + 8) = rowGradients row n + (greenGradient row (1 + n) + greenGradient row (1 + n + 1) +
      greenGradient row (1 + n + 2) + greenGradient row (1 + n + 3) + greenGradient row (1 + n + 4) +
      greenGradient row (1 + n + 5) + greenGradient row (1 + n + 6) + greenGradient row (1 + n + 7)) := by
  simp only [rowGradients, Finset.sum_range_succ, Nat.cast_add, Nat.cast_one, Nat.cast_ofNat, ← Int.add_assoc]

theorem RowDone.chunk (hm₀ : 0 ≤ m₀.total) (hn : 1 + (n : Int) + 8 < w - 1) (h : RowDone row base w m₀ n m) :
    RowDone row base w m₀ (n + 8) (addChunk row base (1 + n) m) := by
  have hn' : ((n + 8 : Nat) : Int) ≤ w - 2 := by omega
  have htotal : (addChunk row base (1 + n) m).total = m₀.total + rowGradients row (n + 8) := by
    rw [rowGradients_eight, ← Int.add_assoc, ← h.total]
    rfl
  refine ⟨hn', htotal, fun r hr => ?_, fun v hv => ?_⟩
  · rcases List.mem_append.mp hr with hr | hr
    · exact h.reads r hr
    · obtain ⟨k, hk, hr⟩ := List.mem_flatMap.mp hr
      have hrange : 0 ≤ k ∧ k ≤ 7 := by
        simp only [List.mem_cons, List.not_mem_nil, or_false] at hk
        omega
      exact .inr (gradientReads_inside (by omega) (by omega) r hr)
  · rcases List.mem_append.mp hv with hv | hv
    · exact h.sums v hv
    · -- the partial sums are below that of the whole chunk
      right
      have hlast := @total_range row w m₀ (n + 8) hm₀ hn'
      rw [← htotal] at hlast
      have hpos (k : Int) := greenGradient_nonneg row (1 + n + k)
      have h0 := greenGradient_nonneg row (1 + n)
      have h1 := hpos 1
      have h2 := hpos 2
      have h3 := hpos 3
      have h4 := hpos 4
      have h5 := hpos 5
      have h6 := hpos 6
      have h7 := hpos 7
      have hbefore : 0 ≤ m.total := by
        have := rowGradients_nonneg row n
        rw [h.total]
        omega
      simp only [addChunk, List.mem_cons, List.not_mem_nil, or_false] at hv hlast
      omega

/-- The loop over single columns, from any column on. -/
theorem remainder_done (hm₀ : 0 ≤ m₀.total) {x : Int} {fuel : Nat} (hfuel : w - 1 ≤ fuel + x) (hx : x = 1 + n)
    (h : RowDone row base w m₀ n m) :
    RowDone row base w m₀ (w - 2).toNat
      (forLoop (fun x => x < w - 1) 1 (addGradient row base) fuel x m).2 := by
  have hstep (x : Int) (m : Metering) (hG : x < w - 1) (hP : ∃ n : Nat, x = 1 + n ∧ RowDone row base w m₀ n m) :
      ∃ n : Nat, x + 1 = 1 + n ∧ RowDone row base w m₀ n (addGradient row base x m) := by
    obtain ⟨n, rfl, hn⟩ := hP
    exact ⟨n + 1, by omega, hn.gradient hm₀ hG⟩
  obtain ⟨⟨k, hk, hdone⟩, hexit⟩ := forLoop_while (fun x => x < w - 1) 1 (w - 1) (addGradient row base)
    (fun x m => ∃ n : Nat, x = 1 + n ∧ RowDone row base w m₀ n m) (by decide) (fun _ => id) hstep fuel x m hfuel
    ⟨n, hx, h⟩
  have hcolumn := hdone.column
  obtain rfl : k = (w - 2).toNat := by omega
  exact hdone

theorem rowDone_start (hw : 3 ≤ w) : RowDone row base w m₀ 0 m₀ :=
  ⟨by omega, (Int.add_zero _).symm, fun _ => .inl, fun _ => .inl⟩

theorem sobelRow_done (hw : 3 ≤ w) (hm₀ : 0 ≤ m₀.total) :
    RowDone row base w m₀ (w - 2).toNat (sobelRow row base w m₀) :=
  remainder_done hm₀ (by omega) rfl (rowDone_start hw)

theorem sobelRowNwAt_done (hw : 3 ≤ w) (hm₀ : 0 ≤ m₀.total) :
    RowDone row base w m₀ (w - 2).toNat (sobelRowNwAt row base w m₀) := by
  have hstep (x : Int) (m : Metering) (hG : x + 8 < w - 1) (hP : ∃ n : Nat, x = 1 + n ∧ RowDone row base w m₀ n m) :
      ∃ n : Nat, x + 8 = 1 + n ∧ RowDone row base w m₀ n (addChunk row base x m) := by
    obtain ⟨n, rfl, hn⟩ := hP
    exact ⟨n + 8, by omega, hn.chunk hm₀ hG⟩
  obtain ⟨n, hn, hdone⟩ := forLoop_rule (fun x m => ∃ n : Nat, x = 1 + n ∧ RowDone row base w m₀ n m)
    (fun x m hc => hstep x m (of_decide_eq_true hc)) w.toNat 1 m₀ ⟨0, rfl, rowDone_start hw⟩
  exact remainder_done hm₀ (by omega) hn hdone

end

/-! ## What a frame does -/

/-- The frame so far: the first `n` rows are added up. -/
structure FrameDone (rgb : Mem) (w h : Int) (n : Nat) (m : Metering) : Prop where
  row : (n : Int) ≤ h - 2
  total : m.total = frameGradients rgb w n
  reads : ∀ r ∈ m.reads, 0 ≤ r.1 ∧ 0 ≤ r.2 ∧ r.1 + r.2 < w * h * 3
  sums : ∀ v ∈ m.sums, 0 ≤ v ∧ v ≤ 255 * (w - 2) * (h - 2)

section

variable {rgb : Mem} {w h : Int} {m m' : Metering} {n : Nat}

theorem FrameDone.row_done (hw : 3 ≤ w) (hn : 1 + (n : Int) < h - 1) (hm : FrameDone rgb w h n m)
    (hrow : RowDone (rowAt rgb ((1 + n) * (w * 3))) ((1 + n) * (w * 3)) w m (w - 2).toNat m') :
    FrameDone rgb w h (n + 1) m' := by
  have hbase : 0 ≤ (1 + (n : Int)) * (w * 3) := Int.mul_nonneg (by omega) (by omega)
  have hend : (1 + (n : Int)) * (w * 3) + w * 3 ≤ w * h * 3 := by
    have := Int.mul_le_mul_of_nonneg_right (show 1 + (n : Int) + 1 ≤ h by omega) (show 0 ≤ w * 3 by omega)
    calc
      (1 + (n : Int)) * (w * 3) + w * 3 = (1 + n + 1) * (w * 3) := by rw [Int.add_mul _ 1, Int.one_mul]
      _ ≤ h * (w * 3) := this
      _ = w * h * 3 := by rw [← Int.mul_assoc, Int.mul_comm h w]
  refine ⟨by omega, ?_, fun r hr => ?_, fun v hv => ?_⟩
  · rw [hrow.total, hm.total, frameGradients_succ]
  · rcases hrow.reads r hr with hr | ⟨hfirst, hlow, hhigh⟩
    · exact hm.reads r hr
    · rw [hfirst]
      exact ⟨hbase, hlow, by omega⟩
  · rcases hrow.sums v hv with hv | ⟨hlow, hhigh⟩
    · exact hm.sums v hv
    · refine ⟨hlow, hhigh.trans ?_⟩
      calc
        m.total + 255 * (w - 2) ≤ 255 * (w - 2) * n + 255 * (w - 2) := by
          have := frameGradients_le rgb (show 2 ≤ w by omega) n
          rw [hm.total]
          omega
        _ = 255 * (w - 2) * (n + 1) := by rw [Int.mul_add, Int.mul_one]
        _ ≤ 255 * (w - 2) * (h - 2) := Int.mul_le_mul_of_nonneg_left (by omega) (by omega)

/-- A frame adds up its gradients if its rows do. -/
theorem sobelFrame_done {sobelRow : Mem → Int → Int → Metering → Metering} (hw : 3 ≤ w) (hh : 3 ≤ h)
    (hrow : ∀ row base m, 0 ≤ m.total → RowDone row base w m (w - 2).toNat (sobelRow row base w m)) :
    FrameDone rgb w h (h - 2).toNat (sobelFrame sobelRow (some rgb) w h) := by
  have hstep (y : Int) (m : Metering) (hG : y < h - 1) (hP : ∃ n : Nat, y = 1 + n ∧ FrameDone rgb w h n m) :
      ∃ n : Nat, y + 1 = 1 + n ∧
        FrameDone rgb w h n (sobelRow (rowAt rgb (y * (w * 3))) (y * (w * 3)) w m) := by
    obtain ⟨n, rfl, hn⟩ := hP
    have htotal : 0 ≤ m.total := by
      rw [hn.total]
      exact frameGradients_nonneg rgb w n
    exact ⟨n + 1, by omega, hn.row_done hw hG (hrow _ _ m htotal)⟩
  have hstart : FrameDone rgb w h 0 ⟨0, [], []⟩ :=
    ⟨by omega, rfl, fun _ hr => absurd hr List.not_mem_nil, fun _ hv => absurd hv List.not_mem_nil⟩
  obtain ⟨⟨n, hn, hdone⟩, hexit⟩ := forLoop_while (fun y => y < h - 1) 1 (h - 1)
    (fun y m => sobelRow (rowAt rgb (y * (w * 3))) (y * (w * 3)) w m)
    (fun y m => ∃ n : Nat, y = 1 + n ∧ FrameDone rgb w h n m) (by decide) (fun _ => id) hstep h.toNat 1 ⟨0, [], []⟩
    (by omega) ⟨0, rfl, hstart⟩
  have hlast := hdone.row
  obtain rfl : n = (h - 2).toNat := by omega
  unfold sobelFrame
  dsimp only
  rw [if_neg (by omega)]
  exact hdone

end

/-- Either there is nothing to do, or the frame is done. -/
theorem sobelFrame_cases {sobelRow : Mem → Int → Int → Metering → Metering} (rgb : Option Mem) (w h : Int)
    (hrow : 3 ≤ w → ∀ row base m, 0 ≤ m.total → RowDone row base w m (w - 2).toNat (sobelRow row base w m)) :
    (rgb = none ∨ w < 3 ∨ h < 3) ∧ sobelFrame sobelRow rgb w h = ⟨0, [], []⟩ ∨
      ∃ image, rgb = some image ∧ 3 ≤ w ∧ 3 ≤ h ∧
        FrameDone image w h (h - 2).toNat (sobelFrame sobelRow rgb w h) := by
  cases rgb with
  | none => exact .inl ⟨.inl rfl, rfl⟩
  | some image =>
    by_cases hsmall : w < 3 ∨ h < 3
    · refine .inl ⟨.inr hsmall, ?_⟩
      unfold sobelFrame
      exact if_pos hsmall
    · have hw : 3 ≤ w := by omega
      have hh : 3 ≤ h := by omega
      exact .inr ⟨image, rfl, hw, hh, sobelFrame_done hw hh (hrow hw)⟩

/-- **The two focus metrics agree**, read inside of the image and fit an `int`. -/
theorem sobel_metrics_agree (rgb : Option Mem) (w h : Int) :
    sobelEnergyNw rgb w h = sobelEnergy rgb w h ∧ (w < 3 ∨ h < 3 → sobelEnergy rgb w h = 0) ∧
      (∀ r ∈ (sobelEnergyNwAt rgb w h).reads ++ (sobelEnergyAt rgb w h).reads,
        0 ≤ r.1 ∧ 0 ≤ r.2 ∧ r.1 + r.2 < w * h * 3) ∧
      (255 * (w - 2) * (h - 2) ≤ 2 ^ 31 - 1 →
        ∀ v ∈ (sobelEnergyNwAt rgb w h).sums ++ (sobelEnergyAt rgb w h).sums, 0 ≤ v ∧ v ≤ 2 ^ 31 - 1) ∧
      (255 : Int) * (3280 - 2) * (2464 - 2) ≤ 2 ^ 31 - 1 := by
  rw [sobelEnergyNwAt_total]
  unfold sobelEnergy
  have hplain := @sobelFrame_cases sobelRow rgb w h fun hw _ _ _ => sobelRow_done hw
  have hunrolled := @sobelFrame_cases sobelRowNwAt rgb w h fun hw _ _ _ => sobelRowNwAt_done hw
  rcases hplain with ⟨hsmall, hzero⟩ | ⟨image, rfl, hw, hh, hdone⟩
  · rcases hunrolled with ⟨_, hzero'⟩ | ⟨image, rfl, hw, hh, _⟩
    · have hplain : sobelEnergyAt rgb w h = ⟨0, [], []⟩ := hzero
      have hunrolled : sobelEnergyNwAt rgb w h = ⟨0, [], []⟩ := hzero'
      rw [hplain, hunrolled]
      exact ⟨rfl, fun _ => rfl, fun _ hr => absurd hr List.not_mem_nil, fun _ _ hv => absurd hv List.not_mem_nil,
        by decide⟩
    · rcases hsmall with hnone | hsmall
      · cases hnone
      · omega
  · rcases hunrolled with ⟨hsmall, _⟩ | ⟨image', himage, _, _, hdone'⟩
    · rcases hsmall with hnone | hsmall
      · cases hnone
      · omega
    · obtain rfl := Option.some.inj himage
      refine ⟨hdone'.total.trans hdone.total.symm, fun hsmall => by omega, fun r hr => ?_, fun hfits v hv => ?_,
        by decide⟩
      · exact (List.mem_append.mp hr).elim (hdone'.reads r) (hdone.reads r)
      · have hrange := (List.mem_append.mp hv).elim (hdone'.sums v) (hdone.sums v)
        exact ⟨hrange.1, hrange.2.trans hfits⟩

end MochaHal.Camera
