import MochaHal.Camera.Pipeline
import Mathlib.Tactic.Linarith

/-! Auto exposure.  `doAutoExposure` wants the product of exposure and gain to become
`ratio` times what it was and trades one factor for the other.  `aeSelect_tracks_iff`
says when the product it chooses is within the truncation of the two factors: a gain
above 150 is set back to 150 even where the exposure cannot make up for it.  The
product does not fall when the ratio grows (`aeChoice_mono`). -/

namespace MochaHal.Camera
open MochaHal.Prog MochaHal.ColorConv MochaHal.Demosaic

/-! ## The choice -/

/-- The new product misses the wanted one by at most one step of each factor. -/
def Tracks (exposure gain : Int) (ratio : Rat) : Prop :=
  let new := aeSelect exposure gain ratio
  |((new.1 * new.2 : Int) : Rat) - ratio * exposure * gain| ≤ 2490 + 180

/-- The exposures and gains of the sensor, with a wanted product that it can attain. -/
structure Attainable (e g : Int) (r : Rat) : Prop where
  exposure : 10 ≤ e ∧ e ≤ 2490
  gain : 1 ≤ g ∧ g ≤ 180
  ratio : 1 / 2 ≤ r ∧ r ≤ 4
  product : 10 * (g : Rat) ≤ r * e * g ∧ r * e * g ≤ 2490 * 180

theorem truncate_div {n : Int} (h : 0 ≤ n) (d : Nat) : truncate ((n : Rat) / d) = n / d := by
  rw [truncate_of_nonneg (by positivity), Rat.floor_intCast_div_natCast]

section
variable {e g m : Int} {r : Rat}

/-- Too long an exposure is cut and the rest goes into the gain. -/
theorem aeSelect_long (hm : truncate (e * r) = m) (h : 2490 < m) (hg : 1 ≤ g)
    (hmax : g * m ≤ 2490 * 180) : aeSelect e g r = (2490, g * m / 2490) := by
  have hdiv : truncate (g * ((m : Rat) / 2490)) = g * m / 2490 := by
    have hpos : 0 ≤ g * m := Int.mul_nonneg (by omega) (by omega)
    rw [← mul_div_assoc]
    exact_mod_cast truncate_div hpos 2490
  have hlow : 2490 * g ≤ g * m := by
    rw [Int.mul_comm 2490 g]
    exact Int.mul_le_mul_of_nonneg_left (by omega) (by omega)
  have h180 : ¬ g * m / 2490 > 180 := by omega
  have h1 : ¬ g * m / 2490 < 1 := by omega
  simp only [aeSelect, hm, if_pos h, hdiv]
  simp [h180, h1]

/-- A gain above 150 is set back to 150 and the rest goes into the exposure. -/
theorem aeSelect_high (hm : truncate (e * r) = m) (h10 : 10 ≤ m) (h : m < 2490) (hg : 150 < g) :
    aeSelect e g r = (min 2490 (m * g / 150), 150) := by
  have hlong : ¬ m > 2490 := by omega
  have hprod : m * 150 ≤ m * g := Int.mul_le_mul_of_nonneg_left (by omega) (by omega)
  have hdiv : truncate (m * ((g : Rat) / 150)) = m * g / 150 := by
    have hpos : 0 ≤ m * g := by omega
    rw [← mul_div_assoc]
    exact_mod_cast truncate_div hpos 150
  have hhigh : g > 150 ∧ m < 2490 := ⟨hg, h⟩
  simp only [aeSelect, hm, if_neg hlong, if_pos hhigh, hdiv]
  by_cases hcut : m * g / 150 > 2490
  · simp [hcut, Int.min_eq_left (Int.le_of_lt hcut)]
  · have h10' : ¬ m * g / 150 < 10 := by omega
    simp [hcut, h10', Int.min_eq_right (Int.not_lt.mp hcut)]

/-- Otherwise the exposure alone follows. -/
theorem aeSelect_plain (hm : truncate (e * r) = m) (h10 : 10 ≤ m) (h : m ≤ 2490)
    (hg : g ≤ 150 ∨ m = 2490) (h1 : 1 ≤ g) (h180 : g ≤ 180) : aeSelect e g r = (m, g) := by
  have hlong : ¬ m > 2490 := by omega
  have hhigh : ¬ (g > 150 ∧ m < 2490) := by omega
  have hlow : ¬ m < 10 := by omega
  have hgmax : ¬ g > 180 := by omega
  have hgmin : ¬ g < 1 := by omega
  simp [aeSelect, hm, hlong, hhigh, hlow, hgmax, hgmin]

/-- `m` is the exposure that is wanted at the old gain, truncated. -/
structure Wanted (e g m : Int) (r : Rat) : Prop where
  trunc : truncate (e * r) = m
  ge : 10 ≤ m
  le : (m : Rat) ≤ r * e
  lt : r * e < m + 1
  product_le : (m * g : Rat) ≤ r * e * g
  product_lt : r * e * g < m * g + g

theorem Attainable.wanted (h : Attainable e g r) : ∃ m, Wanted e g m r := by
  obtain ⟨he, hg, hr, hlow, hhigh⟩ := h
  have hgpos : (0 : Rat) < g := by exact_mod_cast (by omega : 0 < g)
  have hepos : (0 : Rat) < e := by exact_mod_cast (by omega : 0 < e)
  have her : (10 : Rat) ≤ e * r := by
    have : (10 : Rat) * g ≤ (e * r) * g := by linarith [mul_comm (e : Rat) r]
    exact le_of_mul_le_mul_right this hgpos
  have hle := Int.floor_le ((e : Rat) * r)
  have hlt := Int.lt_floor_add_one ((e : Rat) * r)
  have hcomm := mul_comm r (e : Rat)
  refine ⟨⌊(e : Rat) * r⌋, truncate_of_nonneg (by linarith), ?_, ?_, ?_, ?_, ?_⟩
  · exact Int.le_floor.mpr (by exact_mod_cast her)
  · rw [hcomm]
    exact hle
  · rw [hcomm]
    exact hlt
  · rw [hcomm]
    exact mul_le_mul_of_nonneg_right hle hgpos.le
  · have := mul_lt_mul_of_pos_right hlt hgpos
    rw [hcomm]
    linarith

theorem tracks_iff_bounds {new : Int × Int} (hsel : aeSelect e g r = new) :
    Tracks e g r ↔ (new.1 * new.2 : Int) - (2490 + 180) ≤ r * e * g ∧
      r * e * g ≤ (new.1 * new.2 : Int) + (2490 + 180) := by
  unfold Tracks
  rw [hsel]
  simp only
  rw [abs_le]
  constructor
  · rintro ⟨h1, h2⟩
    exact ⟨by linarith, by linarith⟩
  · rintro ⟨h1, h2⟩
    exact ⟨by linarith, by linarith⟩

theorem tracks_long (h : Attainable e g r) (hw : Wanted e g m r) (hm : 2490 < m) : Tracks e g r := by
  have hmg : (g : Rat) * m ≤ r * e * g := by linarith [hw.product_le, mul_comm (g : Rat) m]
  have hmax : g * m ≤ 2490 * 180 := by
    have : (g : Rat) * m ≤ 2490 * 180 := hmg.trans h.product.2
    exact_mod_cast this
  have hcut : (2490 * (g * m / 2490) : Int) ≤ g * m ∧ g * m < 2490 * (g * m / 2490) + 2490 := by omega
  have hcut1 : ((2490 * (g * m / 2490) : Int) : Rat) ≤ g * m := by exact_mod_cast hcut.1
  have hcut2 : (g : Rat) * m < (2490 * (g * m / 2490) : Int) + 2490 := by exact_mod_cast hcut.2
  have hg : (g : Rat) ≤ 180 := by exact_mod_cast h.gain.2
  rw [tracks_iff_bounds (aeSelect_long hw.trunc hm h.gain.1 hmax)]
  constructor
  · linarith
  · linarith [hw.product_lt, mul_comm (g : Rat) m]

theorem tracks_plain (h : Attainable e g r) (hw : Wanted e g m r) (hm : m ≤ 2490)
    (hg : g ≤ 150 ∨ m = 2490) : Tracks e g r := by
  have hg180 : (g : Rat) ≤ 180 := by exact_mod_cast h.gain.2
  rw [tracks_iff_bounds (aeSelect_plain hw.trunc hw.ge hm hg h.gain.1 h.gain.2)]
  push_cast
  constructor
  · linarith [hw.product_le]
  · linarith [hw.product_lt]

theorem tracks_high_iff (h : Attainable e g r) (hw : Wanted e g m r) (hm : m < 2490) (hg : 150 < g) :
    Tracks e g r ↔ r * e * g ≤ 2490 * 150 + (2490 + 180) := by
  have hg180 : (g : Rat) ≤ 180 := by exact_mod_cast h.gain.2
  have hlo := hw.product_le
  have hhi := hw.product_lt
  have hcut : (min 2490 (m * g / 150) * 150 : Int) ≤ m * g ∧ min 2490 (m * g / 150) ≤ 2490 ∧
      (m * g < min 2490 (m * g / 150) * 150 + 150 ∨ min 2490 (m * g / 150) = 2490) := by omega
  rw [tracks_iff_bounds (aeSelect_high hw.trunc hw.ge hm hg)]
  generalize min 2490 (m * g / 150) = e' at hcut
  obtain ⟨hle, hmax, hcut⟩ := hcut
  have hle : ((e' * 150 : Int) : Rat) ≤ m * g := by exact_mod_cast hle
  have hmax : ((e' * 150 : Int) : Rat) ≤ 2490 * 150 := by exact_mod_cast (by omega : e' * 150 ≤ 2490 * 150)
  constructor
  · rintro ⟨-, htop⟩
    linarith
  · intro htop
    rcases hcut with hlt | rfl
    · have hlt : (m : Rat) * g < (e' * 150 : Int) + 150 := by exact_mod_cast hlt
      exact ⟨by linarith, by linarith⟩
    · exact ⟨by linarith, by exact_mod_cast htop⟩

theorem aeSelect_tracks_iff (h : Attainable e g r) : Tracks e g r ↔
    g ≤ 150 ∨ 2490 ≤ r * e ∨ r * e * g ≤ 2490 * 150 + (2490 + 180) := by
  obtain ⟨m, hw⟩ := h.wanted
  by_cases hlong : 2490 < m
  · have hre : (2490 : Rat) ≤ r * e := by
      have : (2490 : Rat) ≤ m := by exact_mod_cast hlong.le
      exact this.trans hw.le
    exact ⟨fun _ => .inr (.inl hre), fun _ => tracks_long h hw hlong⟩
  · by_cases hplain : g ≤ 150 ∨ m = 2490
    · refine ⟨fun _ => ?_, fun _ => tracks_plain h hw (by omega) hplain⟩
      rcases hplain with hg | rfl
      · exact .inl hg
      · exact .inr (.inl hw.le)
    · have hm : m < 2490 := by omega
      have hre : ¬ (2490 : Rat) ≤ r * e := by
        have : (m : Rat) + 1 ≤ 2490 := by exact_mod_cast hm
        linarith [hw.lt]
      have hg : ¬ g ≤ 150 := by omega
      rw [tracks_high_iff h hw hm (by omega)]
      simp [hre, hg]

end

/-! ## Monotone in the ratio -/

/-- The choice in integers, from the gain and the truncated exposure `m` alone. -/
def aeChoice (g m : Int) : Int × Int :=
  if 2490 < m then (2490, max 1 (min 180 (g * m / 2490)))
  else if 150 < g ∧ m < 2490 then (max 10 (min 2490 (m * g / 150)), 150)
  else (max 10 m, max 1 (min 180 g))

theorem aeSelect_eq_choice {e g m : Int} {r : Rat} (hm : truncate (e * r) = m) (h0 : 0 ≤ m)
    (hg : 0 ≤ g) : aeSelect e g r = aeChoice g m := by
  have hlong : truncate (g * ((m : Rat) / 2490)) = g * m / 2490 := by
    rw [← mul_div_assoc]
    exact_mod_cast truncate_div (Int.mul_nonneg hg h0) 2490
  have hhigh : truncate (m * ((g : Rat) / 150)) = m * g / 150 := by
    rw [← mul_div_assoc]
    exact_mod_cast truncate_div (Int.mul_nonneg h0 hg) 150
  simp only [aeSelect, aeChoice, hm, hlong, hhigh]
  by_cases hl : m > 2490
  · simp only [if_pos hl]
    refine Prod.ext ?_ ?_
    · rfl
    · dsimp only
      split_ifs <;> omega
  · simp only [if_neg hl]
    by_cases hh : g > 150 ∧ m < 2490
    · simp only [if_pos hh]
      refine Prod.ext ?_ ?_
      · dsimp only
        split_ifs <;> omega
      · rfl
    · simp only [if_neg hh]
      refine Prod.ext ?_ ?_
      · dsimp only
        split_ifs <;> omega
      · dsimp only
        split_ifs <;> omega

theorem aeChoice_range (g m : Int) : (10 ≤ (aeChoice g m).1 ∧ (aeChoice g m).1 ≤ 2490) ∧
    (1 ≤ (aeChoice g m).2 ∧ (aeChoice g m).2 ≤ 180) := by
  unfold aeChoice
  split
  · dsimp only
    omega
  · split
    · dsimp only
      omega
    · dsimp only
      omega

/-- A cut exposure leaves at least the old gain. -/
theorem le_long_gain {g m : Int} (hg : 0 ≤ g) (hm : 2490 < m) : g ≤ g * m / 2490 := by
  have h : g * 2490 ≤ g * m := Int.mul_le_mul_of_nonneg_left hm.le hg
  omega

/-- The three regimes in turn: the exposure alone, the gain set back to 150, the cut
exposure.  A gain above 150 jumps from the second to the third at 2490, upwards. -/
theorem aeChoice_mono {g m₁ m₂ : Int} (hg : 0 ≤ g) (h : m₁ ≤ m₂) :
    (aeChoice g m₁).1 * (aeChoice g m₁).2 ≤ (aeChoice g m₂).1 * (aeChoice g m₂).2 := by
  unfold aeChoice
  by_cases hl₁ : 2490 < m₁
  · have hl₂ : 2490 < m₂ := by omega
    have hgain : g * m₁ / 2490 ≤ g * m₂ / 2490 :=
      Int.ediv_le_ediv (by decide) (Int.mul_le_mul_of_nonneg_left h hg)
    rw [if_pos hl₁, if_pos hl₂]
    dsimp only
    omega
  · rw [if_neg hl₁]
    by_cases hh₁ : 150 < g ∧ m₁ < 2490
    · rw [if_pos hh₁]
      by_cases hl₂ : 2490 < m₂
      · have := le_long_gain hg hl₂
        rw [if_pos hl₂]
        dsimp only
        omega
      · rw [if_neg hl₂]
        by_cases hh₂ : 150 < g ∧ m₂ < 2490
        · have hexp : m₁ * g / 150 ≤ m₂ * g / 150 :=
            Int.ediv_le_ediv (by decide) (Int.mul_le_mul_of_nonneg_right h hg)
          rw [if_pos hh₂]
          dsimp only
          omega
        · have hm₂ : m₂ = 2490 := by omega
          have hexp : max 10 (2490 : Int) = 2490 := by decide
          rw [if_neg hh₂, hm₂]
          dsimp only
          rw [hexp]
          omega
    · rw [if_neg hh₁]
      have hpos : 0 ≤ max 1 (min 180 g) := by omega
      by_cases hl₂ : 2490 < m₂
      · have hgain := le_long_gain hg hl₂
        rw [if_pos hl₂]
        calc max 10 m₁ * max 1 (min 180 g)
            ≤ 2490 * max 1 (min 180 g) := Int.mul_le_mul_of_nonneg_right (by omega) hpos
          _ ≤ 2490 * max 1 (min 180 (g * m₂ / 2490)) := by omega
      · have hh₂ : ¬ (150 < g ∧ m₂ < 2490) := by omega
        rw [if_neg hl₂, if_neg hh₂]
        exact Int.mul_le_mul_of_nonneg_right (by omega) hpos

/-- For an exposure and a gain that are not negative, the choice is the one in integers. -/
theorem aeSelect_choice {e g : Int} {r : Rat} (he : 0 ≤ e) (hg : 0 ≤ g) (hr : 1 / 2 ≤ r) :
    aeSelect e g r = aeChoice g ⌊(e : Rat) * r⌋ := by
  have hnonneg : (0 : Rat) ≤ e * r := mul_nonneg (by exact_mod_cast he) (by linarith)
  exact aeSelect_eq_choice (truncate_of_nonneg hnonneg) (Int.floor_nonneg.mpr hnonneg) hg

theorem aeSelect_mono {e g : Int} {r₁ r₂ : Rat} (he : 0 ≤ e) (hg : 0 ≤ g) (hr : 1 / 2 ≤ r₁)
    (h : r₁ ≤ r₂) : (aeSelect e g r₁).1 * (aeSelect e g r₁).2 ≤
      (aeSelect e g r₂).1 * (aeSelect e g r₂).2 := by
  rw [aeSelect_choice he hg hr, aeSelect_choice he hg (hr.trans h)]
  refine aeChoice_mono hg (Int.floor_le_floor ?_)
  exact mul_le_mul_of_nonneg_left h (by exact_mod_cast he)

theorem aeSelect_range {e g : Int} {r : Rat} (he : 0 ≤ e) (hg : 0 ≤ g) (hr : 1 / 2 ≤ r) :
    (10 ≤ (aeSelect e g r).1 ∧ (aeSelect e g r).1 ≤ 2490) ∧
      (1 ≤ (aeSelect e g r).2 ∧ (aeSelect e g r).2 ≤ 180) := by
  rw [aeSelect_choice he hg hr]
  exact aeChoice_range g _

/-! ## The method -/

theorem aeRatio_bounds (target avgLuma : Rat) :
    1 / 2 ≤ aeRatio target avgLuma ∧ aeRatio target avgLuma ≤ 4 := by
  unfold aeRatio
  dsimp only
  generalize target / _ = ratio
  split
  · norm_num
  · split
    · norm_num
    · constructor
      · linarith
      · linarith

namespace CameraPipeline

/-- The ratio that `doAutoExposure` computes from a frame. -/
def frameRatio (p : CameraPipeline) (rgb : Mem) : Rat :=
  let luma := lumaSum rgb p.mConfig.width.toInt p.mConfig.height.toInt
  aeRatio p.mConfig.targetLuma ((luma.1 : Rat) / luma.2 / 255)

/-- The sensor takes every control. -/
def ControlsTaken (o : KernelOp) (a : o.Ans) : Prop :=
  match o, a with
  | .setControl _ _, r => r = .ok ()
  | _, _ => True

theorem setGain_post {p : CameraPipeline} (g : Int) :
    Post ControlsTaken (fun r => r.2 = { p with mCurrentGain := g }) (setGain g p) := by
  intro a ha
  cases (ha : a = .ok ())
  rfl

theorem setExposure_post {p : CameraPipeline} (e : Int) :
    Post ControlsTaken (fun r => r.2 = { p with mCurrentExposure := e }) (setExposure e p) := by
  intro a ha
  cases (ha : a = .ok ())
  rfl

/-- With every control taken, the fields hold the choice of `aeSelect`. -/
theorem doAutoExposure_post {p : CameraPipeline} {rgb : Mem}
    (hcount : (lumaSum rgb p.mConfig.width.toInt p.mConfig.height.toInt).2 ≠ 0) :
    Post ControlsTaken (fun r => (r.2.mCurrentExposure, r.2.mCurrentGain) =
        aeSelect p.mCurrentExposure p.mCurrentGain (p.frameRatio rgb)) (doAutoExposure rgb p) := by
  unfold doAutoExposure
  rw [post_stateBind, post_get]
  dsimp only [frameRatio]
  rw [if_neg hcount, post_stateBind]
  generalize aeSelect p.mCurrentExposure p.mCurrentGain (aeRatio _ _) = new
  have hgain : Post ControlsTaken (fun r => r.2 = { p with mCurrentGain := new.2 })
      ((onlyIf (new.2 ≠ p.mCurrentGain) (setGain new.2 >>= fun _ => pure ()) : Pipe Unit) p) := by
    apply post_stateIte
    · intro _
      exact post_stateBind.mpr (setGain_post new.2)
    · intro hsame
      rw [not_not.mp hsame]
      rfl
  refine hgain.mono ?_
  rintro ⟨_, q⟩ rfl
  apply post_stateIte
  · intro _
    refine post_stateBind.mpr ((setExposure_post new.1).mono ?_)
    rintro ⟨_, q⟩ rfl
    rfl
  · intro hsame
    exact Prod.ext (not_not.mp hsame).symm rfl

end CameraPipeline

/-- **When auto exposure keeps an attainable target.**  `doAutoExposure` makes the choice
`aeSelect` on every frame, with a ratio in this range. -/
theorem autoExposure_tracks_iff (e g : Int) (r : Rat) (he : 10 ≤ e) (he' : e ≤ 2490) (hg : 1 ≤ g)
    (hg' : g ≤ 180) (hr : 1 / 2 ≤ r) (hr' : r ≤ 4) (hlow : 10 * (g : Rat) ≤ r * e * g)
    (hhigh : r * e * g ≤ 2490 * 180) :
    (Tracks e g r ↔ g ≤ 150 ∨ 2490 ≤ r * e ∨ r * e * g ≤ 2490 * 150 + (2490 + 180)) ∧
    ∀ (p : CameraPipeline) (rgb : Mem) (env : KernelEnv) (n : Nat),
      (lumaSum rgb p.mConfig.width.toInt p.mConfig.height.toInt).2 ≠ 0 →
      (∀ n o, CameraPipeline.ControlsTaken o (env n o)) →
      let q := (run env n (CameraPipeline.doAutoExposure rgb p)).2
      let ratio := p.frameRatio rgb
      1 / 2 ≤ ratio ∧ ratio ≤ 4 ∧
        (q.mCurrentExposure, q.mCurrentGain) = aeSelect p.mCurrentExposure p.mCurrentGain ratio := by
  refine ⟨aeSelect_tracks_iff ⟨⟨he, he'⟩, ⟨hg, hg'⟩, ⟨hr, hr'⟩, hlow, hhigh⟩, ?_⟩
  intro p rgb env n hcount htaken q ratio
  have hbounds : 1 / 2 ≤ ratio ∧ ratio ≤ 4 := aeRatio_bounds _ _
  exact ⟨hbounds.1, hbounds.2, post_run (CameraPipeline.doAutoExposure_post hcount) htaken n⟩

theorem autoExposure_tracks_gain160 : Tracks 1000 160 2 :=
  (autoExposure_tracks_iff 1000 160 2 (by decide) (by decide) (by decide) (by decide) (by norm_num)
    (by norm_num) (by norm_num) (by norm_num)).1.mpr (.inr (.inr (by norm_num)))

/-- At exposure 2489 and gain 180 the product that is already there is given up. -/
theorem autoExposure_darkens : ¬ ∀ (e g : Int) (r : Rat), 10 ≤ e → e ≤ 2490 → 1 ≤ g → g ≤ 180 →
    1 / 2 ≤ r → r ≤ 4 → 10 * (g : Rat) ≤ r * e * g → r * e * g ≤ 2490 * 180 → Tracks e g r := by
  intro h
  have htracks := h 2489 180 1 (by decide) (by decide) (by decide) (by decide) (by norm_num) (by norm_num)
    (by norm_num) (by norm_num)
  have hsel : aeSelect 2489 180 1 = (2490, 150) := by decide +kernel
  rw [tracks_iff_bounds hsel] at htracks
  norm_num at htracks

/-- **Auto exposure is monotone and stays in range.**  A larger ratio never makes the
chosen product smaller, whatever the driver gave back for the exposure and the gain (the bounds keep the
conversions to `int` exact); and `doAutoExposure` leaves that choice in the fields. -/
theorem autoExposure_monotone (e g : Int) (he : 0 ≤ e) (_he' : e < 2 ^ 20) (hg : 0 ≤ g)
    (_hg' : g < 2 ^ 10) :
    (∀ r₁ r₂ : Rat, 1 / 2 ≤ r₁ → r₁ ≤ r₂ → r₂ ≤ 4 →
      (aeSelect e g r₁).1 * (aeSelect e g r₁).2 ≤ (aeSelect e g r₂).1 * (aeSelect e g r₂).2) ∧
    (∀ r : Rat, 1 / 2 ≤ r → r ≤ 4 → (10 ≤ (aeSelect e g r).1 ∧ (aeSelect e g r).1 ≤ 2490) ∧
      (1 ≤ (aeSelect e g r).2 ∧ (aeSelect e g r).2 ≤ 180)) ∧
    ∀ (p : CameraPipeline) (rgb : Mem) (env : KernelEnv) (n : Nat),
      p.mCurrentExposure = e → p.mCurrentGain = g →
      (lumaSum rgb p.mConfig.width.toInt p.mConfig.height.toInt).2 ≠ 0 →
      (∀ n o, CameraPipeline.ControlsTaken o (env n o)) →
      let q := (run env n (CameraPipeline.doAutoExposure rgb p)).2
      let ratio := p.frameRatio rgb
      1 / 2 ≤ ratio ∧ ratio ≤ 4 ∧
        (q.mCurrentExposure, q.mCurrentGain) = aeSelect e g ratio := by
  refine ⟨fun r₁ r₂ hr h _ => aeSelect_mono he hg hr h, fun r hr _ => aeSelect_range he hg hr, ?_⟩
  intro p rgb env n hexp hgain hcount htaken q ratio
  have hbounds : 1 / 2 ≤ ratio ∧ ratio ≤ 4 := aeRatio_bounds _ _
  have hpost := post_run (CameraPipeline.doAutoExposure_post hcount) htaken n
  rw [hexp, hgain] at hpost
  exact ⟨hbounds.1, hbounds.2, hpost⟩

/-- Gain 180 from below 2490 to just above it: from 2490 · 150 to 2490 · 180. -/
theorem autoExposure_monotone_at_2490 :
    aeSelect 2489 180 1 = (2490, 150) ∧ aeSelect 2489 180 2 = (2490, 180) ∧
    (aeSelect 2489 180 1).1 * (aeSelect 2489 180 1).2 ≤
      (aeSelect 2489 180 2).1 * (aeSelect 2489 180 2).2 :=
  ⟨by decide +kernel, by decide +kernel,
    (autoExposure_monotone 2489 180 (by decide) (by decide) (by decide) (by decide)).1 1 2
      (by norm_num) (by norm_num) (by norm_num)⟩

end MochaHal.Camera
