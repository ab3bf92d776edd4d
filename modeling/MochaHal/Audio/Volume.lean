import MochaHal.Audio.ConfigParser
import Mathlib.Data.Nat.Find

/-! The volume of a stream in `configmgr/audio_config.c`.  A percentage is scaled to the
range of the control in 32 bits, but 0 and 100 are the ends of the range.  The volume
rises with the percentage exactly when 99 percent can be computed without a wrap
(`vol_in_order_iff`). -/

namespace MochaHal.Audio.Parser

/-! ## The source -/

/-- A value that is written to a control of the mixer. -/
structure MixerWrite where
  id : Nat
  index : BitVec 32
  val : BitVec 32
  deriving DecidableEq, Repr

def setVolCtl (volctl : StreamControl) (percent : BitVec 32) : MixerWrite where
  id := volctl.id
  index := volctl.index
  val :=
    if percent = 0 then volctl.min
    else if percent = 100 then volctl.max
    else
      let range := volctl.max - volctl.min
      volctl.min + percent * range / 100

def ENOSYS : Int := 38

/-- `set_hw_volume`.  The percentages are signed, and a control for both sides gets their
mean. -/
def setHwVolume (s : PStream) (left_pc right_pc : Int) : Int × List MixerWrite :=
  match s.volume_left, s.volume_right with
  | none, none => (-ENOSYS, [])
  | some left, none => (0, [setVolCtl left (BitVec.ofInt 32 ((left_pc + right_pc).tdiv 2))])
  | none, some right => (0, [setVolCtl right (BitVec.ofInt 32 right_pc)])
  | some left, some right =>
    (0, [setVolCtl left (BitVec.ofInt 32 left_pc), setVolCtl right (BitVec.ofInt 32 right_pc)])

/-! ## The order of the values -/

/-- The values rise with the percentage and run from the least to the largest. -/
structure InOrder (c : StreamControl) : Prop where
  rises : ∀ p q : BitVec 32, p ≤ q → q ≤ 100 →
    c.min ≤ (setVolCtl c p).val ∧ (setVolCtl c p).val ≤ (setVolCtl c q).val ∧ (setVolCtl c q).val ≤ c.max
  least : (setVolCtl c 0).val = c.min
  largest : (setVolCtl c 100).val = c.max

/-- The values as numbers. -/
def scaled (min max p : Nat) : Nat :=
  if p = 0 then min else if p = 100 then max else (min + p * (max - min) % 2 ^ 32 / 100) % 2 ^ 32

variable {c : StreamControl}

theorem setVolCtl_toNat (h : c.min ≤ c.max) (p : BitVec 32) :
    (setVolCtl c p).val.toNat = scaled c.min.toNat c.max.toNat p.toNat := by
  have hle : c.min.toNat ≤ c.max.toNat := h
  have hzero : p = 0 ↔ p.toNat = 0 := by rw [← BitVec.toNat_inj]; rfl
  have hhundred : p = 100 ↔ p.toNat = 100 := by rw [← BitVec.toNat_inj]; rfl
  simp only [setVolCtl, scaled, hzero, hhundred]
  split
  · rfl
  split
  · rfl
  · rw [BitVec.toNat_add, BitVec.toNat_udiv, BitVec.toNat_mul, BitVec.toNat_sub_of_le h]
    rfl

section

variable {min max : Nat}

/-- Where nothing wraps the ends are no exceptions. -/
theorem scaled_eq (h : min ≤ max) (hmax : max < 2 ^ 32) (hrange : 99 * (max - min) < 2 ^ 32) {p : Nat} (hp : p ≤ 100) :
    scaled min max p = min + p * (max - min) / 100 := by
  have hle : p * (max - min) / 100 ≤ max - min :=
    Nat.div_le_of_le_mul (Nat.mul_le_mul_right _ hp)
  unfold scaled
  split
  case isTrue hzero => simp [hzero]
  split
  case isTrue hhundred =>
    rw [hhundred]
    omega
  case isFalse =>
    have hproduct : p * (max - min) ≤ 99 * (max - min) := Nat.mul_le_mul_right _ (by omega)
    rw [Nat.mod_eq_of_lt (by omega : p * (max - min) < 2 ^ 32), Nat.mod_eq_of_lt (by omega)]

/-- Where 99 percent wraps, some percentage gives less than one before it. -/
theorem exists_drop {range : Nat} (hlt : range < 2 ^ 32) (h : 2 ^ 32 ≤ 99 * range) :
    ∃ p q, 0 < p ∧ p < q ∧ q < 100 ∧ p * range % 2 ^ 32 / 100 ≤ range ∧
      q * range % 2 ^ 32 / 100 < p * range % 2 ^ 32 / 100 := by
  by_cases hnear : 2 ^ 32 < range + 100
  · -- the products count down from 2 ^ 32 by less than 100
    have hone : 1 * range % 2 ^ 32 = range := by omega
    have hmany : 99 * range % 2 ^ 32 = 99 * range - 98 * 2 ^ 32 := by omega
    refine ⟨1, 99, by omega, by omega, by omega, by omega, ?_⟩
    rw [hone, hmany]
    by_cases hlast : range = 2 ^ 32 - 1
    · rw [hlast]
      decide
    · omega
  · have hwraps : ∃ k, 2 ^ 32 ≤ k * range := ⟨99, h⟩
    obtain ⟨k, hk, hfirst⟩ : ∃ k, 2 ^ 32 ≤ k * range ∧ ∀ m < k, ¬ 2 ^ 32 ≤ m * range :=
      ⟨Nat.find hwraps, Nat.find_spec hwraps, fun m => Nat.find_min hwraps⟩
    have hle : k ≤ 99 := Nat.le_of_not_lt fun hlt => hfirst 99 hlt h
    obtain ⟨p, rfl⟩ : ∃ p, k = p + 1 := by
      cases k with
      | zero => omega
      | succ p => exact ⟨p, rfl⟩
    have hp := hfirst p (by omega)
    have hpos : 0 < p := by
      rcases Nat.eq_zero_or_pos p with rfl | hpos
      · omega
      · exact hpos
    have hbelow : p * range ≤ 100 * range := Nat.mul_le_mul_right _ (by omega)
    have hstep : (p + 1) * range = p * range + range := Nat.succ_mul p range
    exact ⟨p, p + 1, hpos, by omega, by omega, by omega, by omega⟩

theorem scaled_in_order_iff (h : min ≤ max) (hmax : max < 2 ^ 32) :
    (∀ p q, p ≤ q → q ≤ 100 → min ≤ scaled min max p ∧ scaled min max p ≤ scaled min max q ∧ scaled min max q ≤ max) ↔
      99 * (max - min) < 2 ^ 32 := by
  constructor
  · intro horder
    by_contra hrange
    obtain ⟨p, q, hp, hpq, hq, hfits, hdrop⟩ := @exists_drop (max - min) (by omega) (by omega)
    have hle := (horder p q hpq.le hq.le).2.1
    unfold scaled at hle
    rw [if_neg (by omega), if_neg (by omega), if_neg (by omega), if_neg (by omega), Nat.mod_eq_of_lt (by omega),
      Nat.mod_eq_of_lt (by omega)] at hle
    omega
  · intro hrange p q hpq hq
    have hrises : p * (max - min) / 100 ≤ q * (max - min) / 100 :=
      Nat.div_le_div_right (Nat.mul_le_mul_right _ hpq)
    have htop : q * (max - min) / 100 ≤ max - min := Nat.div_le_of_le_mul (Nat.mul_le_mul_right _ hq)
    rw [scaled_eq h hmax hrange (hpq.trans hq), scaled_eq h hmax hrange hq]
    omega

end

/-- **Volumes.**  The values of a control are in order exactly when 99 times its range
fits into 32 bits. -/
theorem vol_in_order_iff (h : c.min ≤ c.max) : InOrder c ↔ 99 * (c.max.toNat - c.min.toNat) < 2 ^ 32 := by
  rw [← scaled_in_order_iff h c.max.isLt]
  constructor
  · intro horder p q hpq hq
    have hp : (BitVec.ofNat 32 p).toNat = p := by
      rw [BitVec.toNat_ofNat]
      omega
    have hq' : (BitVec.ofNat 32 q).toNat = q := by
      rw [BitVec.toNat_ofNat]
      omega
    have hrises := horder.rises (BitVec.ofNat 32 p) (BitVec.ofNat 32 q)
      (by rw [BitVec.le_def, hp, hq']; exact hpq) (by rw [BitVec.le_def, hq']; exact hq)
    simpa only [BitVec.le_def, setVolCtl_toNat h, hp, hq'] using hrises
  · intro horder
    refine ⟨fun p q hpq hq => ?_, rfl, rfl⟩
    simpa only [BitVec.le_def, setVolCtl_toNat h] using horder p.toNat q.toNat hpq hq

theorem vol_in_order_80 : InOrder ⟨7, 0, 0, 80⟩ ↔ 99 * (80 - 0) < 2 ^ 32 := @vol_in_order_iff ⟨7, 0, 0, 80⟩ (by decide)

/-! ## A control over all of 32 bits -/

def wideAttribs : Attribs
  | .name => some "Master"
  | .function => some "leftvol"
  | .min => some "0"
  | .max => some "4294967295"
  | _ => none

/-- A stream is open that has no controls yet. -/
def streamState (left : Option StreamControl) : ParseState :=
  { initState "" [] with
    mixer := some fun _ => some ⟨7, .int, 1, 0, 80⟩
    streams := [⟨⟨.out_pcm, none, 1, 0, -1, -1, 0⟩, left, none, []⟩]
    current := ⟨none, some 0, none, none, none, false⟩ }

/-- The control is accepted, and 99 percent of it are less than one percent. -/
theorem vol_drops :
    ¬ ∀ (host : Host) (attribs : Attribs) (st st' : ParseState) (s : PStream) (c : StreamControl),
      parseStreamCtlStart host attribs st = .ok st' → s ∈ st'.streams → s.volume_left = some c →
        c.min ≤ c.max → InOrder c := by
  intro h
  have horder := h ⟨true, fun _ => none, none⟩ wideAttribs (streamState none)
    (streamState (some ⟨7, 0, 0, 0xFFFFFFFF⟩)) _ ⟨7, 0, 0, 0xFFFFFFFF⟩ rfl List.mem_cons_self rfl (by decide)
  exact absurd (horder.rises 1 99 (by decide) (by decide)).2.1 (by decide)

/-! ## Both sides -/

/-- What is written for percentages is written for one of them or for the mean. -/
theorem setHwVolume_mem {s : PStream} {left_pc right_pc : Int} {w : MixerWrite} (hleft : 0 ≤ left_pc ∧ left_pc ≤ 100)
    (hright : 0 ≤ right_pc ∧ right_pc ≤ 100) (hw : w ∈ (setHwVolume s left_pc right_pc).2) :
    ∃ c p, (s.volume_left = some c ∨ s.volume_right = some c) ∧ p ≤ 100 ∧ w = setVolCtl c p := by
  have hpercent : ∀ v : Int, 0 ≤ v ∧ v ≤ 100 → BitVec.ofInt 32 v ≤ 100 := by
    rintro v ⟨hlow, hhigh⟩
    rw [BitVec.le_def, BitVec.toNat_ofInt]
    simp only [BitVec.reduceToNat]
    omega
  have hmean : 0 ≤ (left_pc + right_pc).tdiv 2 ∧ (left_pc + right_pc).tdiv 2 ≤ 100 := by
    rw [Int.tdiv_eq_ediv_of_nonneg (by omega)]
    omega
  unfold setHwVolume at hw
  split at hw
  case h_1 => cases hw
  case h_2 c hc _ =>
    obtain rfl := List.mem_singleton.mp hw
    exact ⟨c, _, .inl hc, hpercent _ hmean, rfl⟩
  case h_3 c _ hc =>
    obtain rfl := List.mem_singleton.mp hw
    exact ⟨c, _, .inr hc, hpercent _ hright, rfl⟩
  case h_4 c c' hc hc' =>
    rcases List.mem_cons.mp hw with rfl | hw
    · exact ⟨c, _, .inl hc, hpercent _ hleft, rfl⟩
    · obtain rfl := List.mem_singleton.mp hw
      exact ⟨c', _, .inr hc', hpercent _ hright, rfl⟩

/-- A volume stays within the range of its control. -/
theorem setHwVolume_between {s : PStream} {left_pc right_pc : Int} {w : MixerWrite}
    (hcontrols : ∀ c, s.volume_left = some c ∨ s.volume_right = some c → InOrder c)
    (hleft : 0 ≤ left_pc ∧ left_pc ≤ 100) (hright : 0 ≤ right_pc ∧ right_pc ≤ 100)
    (hw : w ∈ (setHwVolume s left_pc right_pc).2) :
    ∃ c, (s.volume_left = some c ∨ s.volume_right = some c) ∧ c.min ≤ w.val ∧ w.val ≤ c.max := by
  obtain ⟨c, p, hc, hp, rfl⟩ := setHwVolume_mem hleft hright hw
  have hrises := (hcontrols c hc).rises p p (BitVec.le_refl p) hp
  exact ⟨c, hc, hrises.1, hrises.2.2⟩

end MochaHal.Audio.Parser
