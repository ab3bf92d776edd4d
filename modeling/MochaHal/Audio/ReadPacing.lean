import Mathlib.Tactic.Linarith
import Mathlib.Algebra.Order.Field.Rat
import Mathlib.Tactic.Positivity

/-! The pace of reads that have nothing to give, in `audio/audio_hw.c`.  The time that the
bytes of a read stand for is computed as a count of 2^19 ns, with a division of 32 bits,
and what has gone by since the last read is taken off it.  `read_pacing` bounds the sleep
and the time between the two reads. -/

namespace MochaHal.Audio.Pacing

/-! ## The source -/

/-- What pacing needs of `stream_in_common`.  Times are in ns. -/
structure InCommon where
  sample_rate : BitVec 32
  frame_size : BitVec 32
  last_read_ns : Int
  deriving DecidableEq, Repr

def doInSetReadTimestamp (systemTime : Int) (strm : InCommon) : InCommon :=
  { strm with last_read_ns := if systemTime = 0 then 1 else systemTime }

/-- A division; `none` where the divisor is 0. -/
def divide (a b : BitVec 32) : Option (BitVec 32) := if b = 0 then none else some (a / b)

/-- The `tv_nsec` of the sleep, if there is one. -/
def doInRealtimeDelay (systemTime : Int) (strm : InCommon) (bytes : BitVec 32) : Option (Option Int) :=
  if strm.last_read_ns ≠ 0 then
    (divide (1907 * bytes) (strm.frame_size * strm.sample_rate)).map fun required_interval =>
      let required_ns : Int := (required_interval.toNat : Int) <<< (19 : Nat)
      let elapsed_ns := systemTime - strm.last_read_ns
      if (required_interval.toNat : Int) > elapsed_ns >>> (19 : Nat) then
        some (BitVec.ofInt 32 (required_ns - elapsed_ns)).toInt
      else none
  else some none

/-- A read leaves a time that is taken for one. -/
theorem last_read_ns_ne_zero (systemTime : Int) (strm : InCommon) :
    (doInSetReadTimestamp systemTime strm).last_read_ns ≠ 0 := by
  unfold doInSetReadTimestamp
  split <;> simp_all

/-! ## Bounds -/

/-- The bytes that a second takes. -/
def InCommon.rate (strm : InCommon) : Nat := strm.frame_size.toNat * strm.sample_rate.toNat

/-- The time that bytes take, in ns. -/
def InCommon.duration (strm : InCommon) (bytes : BitVec 32) : ℚ := 10 ^ 9 * bytes.toNat / strm.rate

/-- The interval in counts of 2^19 ns. -/
def interval (bytes rate : Nat) : Nat := 1907 * bytes / rate

variable {strm : InCommon} {bytes : BitVec 32} {systemTime : Int}

theorem interval_le_second (h : bytes.toNat ≤ strm.rate) : interval bytes.toNat strm.rate ≤ 1907 :=
  Nat.div_le_of_le_mul (by rw [Nat.mul_comm]; exact Nat.mul_le_mul_right _ h)

theorem divide_interval (hpos : 0 < strm.rate) (hrate : strm.rate < 2 ^ 32) (hmul : 1907 * bytes.toNat < 2 ^ 32) :
    ∃ required, divide (1907 * bytes) (strm.frame_size * strm.sample_rate) = some required ∧
      required.toNat = interval bytes.toNat strm.rate := by
  have hdivisor : (strm.frame_size * strm.sample_rate).toNat = strm.rate := by
    rw [BitVec.toNat_mul]
    exact Nat.mod_eq_of_lt hrate
  have hnumerator : (1907 * bytes).toNat = 1907 * bytes.toNat := by
    rw [BitVec.toNat_mul]
    exact Nat.mod_eq_of_lt hmul
  have hne : strm.frame_size * strm.sample_rate ≠ 0 := by
    intro hzero
    rw [hzero] at hdivisor
    exact hpos.ne hdivisor
  exact ⟨_, if_neg hne, by rw [BitVec.toNat_udiv, hdivisor, hnumerator, interval]⟩

/-- Without a wrap, the sleep is what the interval has left. -/
theorem doInRealtimeDelay_eq (hlast : strm.last_read_ns ≠ 0) (hpos : 0 < strm.rate) (hrate : strm.rate < 2 ^ 32)
    (hbytes : bytes.toNat ≤ strm.rate) (hmul : 1907 * bytes.toNat < 2 ^ 32)
    (helapsed : 0 ≤ systemTime - strm.last_read_ns) :
    doInRealtimeDelay systemTime strm bytes =
      some (if systemTime - strm.last_read_ns < interval bytes.toNat strm.rate * 2 ^ 19 then
        some (interval bytes.toNat strm.rate * 2 ^ 19 - (systemTime - strm.last_read_ns)) else none) := by
  obtain ⟨required, hdivide, hrequired⟩ := divide_interval hpos hrate hmul
  have hsecond := interval_le_second hbytes
  simp only [doInRealtimeDelay, ne_eq, hlast, not_false_eq_true, ↓reduceIte, hdivide, Option.map_some, hrequired,
    Int.shiftRight_eq_div_pow, Int.shiftLeft_eq, Nat.cast_pow, Nat.cast_ofNat, gt_iff_lt, Option.some.injEq]
  by_cases hlt : systemTime - strm.last_read_ns < interval bytes.toNat strm.rate * 2 ^ 19
  · rw [if_pos hlt, if_pos (Int.ediv_lt_of_lt_mul (by decide) hlt),
      BitVec.toInt_ofInt_eq_self (by decide) (by omega) (by omega)]
  · rw [if_neg hlt, if_neg]
    intro hdiv
    exact hlt ((Int.ediv_lt_iff_lt_mul (by decide)).mp hdiv)

/-- The interval is no longer than the bytes take. -/
theorem interval_le_duration (hpos : 0 < strm.rate) :
    (interval bytes.toNat strm.rate : ℚ) * 2 ^ 19 ≤ strm.duration bytes := by
  have hrate : (0 : ℚ) < strm.rate := by exact_mod_cast hpos
  have hfloor : (interval bytes.toNat strm.rate : ℚ) * strm.rate ≤ 1907 * bytes.toNat := by
    exact_mod_cast Nat.div_mul_le_self (1907 * bytes.toNat) strm.rate
  have hbytes : (0 : ℚ) ≤ bytes.toNat := by positivity
  rw [InCommon.duration, le_div_iff₀ hrate]
  linarith

/-- It falls short by less than one count and 0.02 percent. -/
theorem duration_le_interval (hpos : 0 < strm.rate) :
    9998 / 10000 * strm.duration bytes - 2 ^ 19 ≤ (interval bytes.toNat strm.rate : ℚ) * 2 ^ 19 := by
  have hrate : (0 : ℚ) < strm.rate := by exact_mod_cast hpos
  have hfloor : (1907 * bytes.toNat : ℚ) ≤ (interval bytes.toNat strm.rate + 1) * strm.rate := by
    have := Nat.lt_div_mul_add (a := 1907 * bytes.toNat) hpos
    rw [← interval] at this
    have hle : 1907 * bytes.toNat ≤ (interval bytes.toNat strm.rate + 1) * strm.rate := by
      rw [Nat.add_mul]
      omega
    exact_mod_cast hle
  have hdiv : 1907 * bytes.toNat / strm.rate ≤ (interval bytes.toNat strm.rate + 1 : ℚ) :=
    (div_le_iff₀ hrate).mpr hfloor
  have hbytes : (0 : ℚ) ≤ bytes.toNat / strm.rate := by positivity
  have hduration : strm.duration bytes = 10 ^ 9 * (bytes.toNat / strm.rate) := mul_div_assoc ..
  rw [mul_div_assoc] at hdiv
  rw [hduration]
  linarith

/-- **Pacing.**  A sleep is shorter than a second.  With the time since the last read it is
never longer than the bytes take, and with or without a sleep the time is not much shorter. -/
theorem read_pacing (hlast : strm.last_read_ns ≠ 0) (hframe : 1 ≤ strm.frame_size.toNat)
    (hsample : 1 ≤ strm.sample_rate.toNat) (hrate : strm.frame_size.toNat * strm.sample_rate.toNat < 2 ^ 32)
    (hbytes : bytes.toNat ≤ strm.frame_size.toNat * strm.sample_rate.toNat) (hmul : 1907 * bytes.toNat < 2 ^ 32)
    (helapsed : 0 ≤ systemTime - strm.last_read_ns) :
    ∃ sleep, doInRealtimeDelay systemTime strm bytes = some sleep ∧
      (∀ tv_nsec, sleep = some tv_nsec → 0 < tv_nsec ∧ tv_nsec < 10 ^ 9 ∧
        ((systemTime - strm.last_read_ns + tv_nsec : Int) : ℚ) ≤ strm.duration bytes) ∧
      9998 / 10000 * strm.duration bytes - 2 * 2 ^ 19 ≤
        ((systemTime - strm.last_read_ns + sleep.getD 0 : Int) : ℚ) := by
  have hpos : 0 < strm.rate := Nat.mul_pos hframe hsample
  have hsecond := @interval_le_second strm bytes hbytes
  have hupper := @interval_le_duration strm bytes hpos
  have hlower := @duration_le_interval strm bytes hpos
  refine ⟨_, doInRealtimeDelay_eq hlast hpos hrate hbytes hmul helapsed, ?_, ?_⟩
  · intro tv_nsec hsleep
    obtain ⟨hlt, hsleep⟩ := Option.ite_none_right_eq_some.mp hsleep
    obtain rfl := Option.some.inj hsleep
    refine ⟨by omega, by omega, ?_⟩
    rw [add_sub_cancel]
    exact_mod_cast hupper
  · split
    · rw [Option.getD_some, add_sub_cancel]
      push_cast
      linarith
    · have hlong : (interval bytes.toNat strm.rate : Int) * 2 ^ 19 ≤ systemTime - strm.last_read_ns := by omega
      have hlong : (interval bytes.toNat strm.rate : ℚ) * 2 ^ 19 ≤ ((systemTime - strm.last_read_ns : Int) : ℚ) := by
        exact_mod_cast hlong
      rw [Option.getD_none, add_zero]
      linarith

/-- 20 ms of two channels at 44100 Hz, 4 ms after the last read. -/
theorem read_pacing_44100 :
    ∃ sleep, doInRealtimeDelay 5000000 ⟨44100, 4, 1000000⟩ 3528 = some sleep ∧
      (∀ tv_nsec, sleep = some tv_nsec → 0 < tv_nsec ∧ tv_nsec < 10 ^ 9 ∧
        ((5000000 - 1000000 + tv_nsec : Int) : ℚ) ≤ InCommon.duration ⟨44100, 4, 1000000⟩ 3528) ∧
      9998 / 10000 * InCommon.duration ⟨44100, 4, 1000000⟩ 3528 - 2 * 2 ^ 19 ≤
        ((5000000 - 1000000 + sleep.getD 0 : Int) : ℚ) :=
  read_pacing (by decide) (by decide) (by decide) (by decide) (by decide) (by decide) (by decide)

end MochaHal.Audio.Pacing
