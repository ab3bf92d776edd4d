import Mathlib.Tactic.Common
import Mathlib.Algebra.Order.Field.Rat

/-! Lane semantics of the vector instructions used by the image code.  A vector
is a function from lanes to fixed-width words; every instruction is given by
what it does to one lane, and the `toNat` lemmas turn a lane of a composed
expression into arithmetic on the input lanes. -/

namespace MochaHal.Neon

/-- A register of `n` lanes of `w` bits. -/
abbrev Vec (n w : Nat) := Fin n → BitVec w

variable {n w : Nat}

/-- Load `n` consecutive words. -/
def vld1 (mem : Int → BitVec w) (addr : Int) : Vec n w := fun i => mem (addr + (i : Nat))

/-- Store the lanes at consecutive addresses. -/
def vst1 (mem : Int → BitVec w) (addr : Int) (v : Vec n w) : Int → BitVec w := fun i =>
  if h : (i - addr).toNat < n ∧ addr ≤ i then v ⟨(i - addr).toNat, h.1⟩ else mem i

/-- The same word in every lane. -/
def vdup (v : BitVec w) : Vec n w := fun _ => v

/-- Lane `j` of the double-length vector `b:a`. -/
def pairLane (a b : Vec n w) (j : Nat) : BitVec w :=
  if h : j < n then a ⟨j, h⟩ else if h' : j - n < n then b ⟨j - n, h'⟩ else 0

/-- Unzip: the even lanes and the odd lanes of the pair. -/
def vuzp (a b : Vec n w) : Vec n w × Vec n w :=
  (fun i => pairLane a b (2 * i), fun i => pairLane a b (2 * i + 1))

/-- The pair as one register of twice the length. -/
def vcombine (a b : Vec n w) : Vec (2 * n) w := fun i => pairLane a b i

/-- Extract `n` lanes of the pair, from lane `k` on. -/
def vext (a b : Vec n w) (k : Nat) : Vec n w := fun i => pairLane a b (i + k)

/-- Widening add. -/
def vaddl (a b : Vec n w) : Vec n (2 * w) := fun i =>
  (a i).setWidth (2 * w) + (b i).setWidth (2 * w)

/-- Lane-wise wrapping add. -/
def vaddq (a b : Vec n w) : Vec n w := fun i => a i + b i

/-- Shift right and keep the low half. -/
def vshrn (a : Vec n (2 * w)) (k : Nat) : Vec n w := fun i => (a i >>> k).setWidth w

/-- Rounding halving add, computed without losing the carry. -/
def vrhadd (a b : Vec n w) : Vec n w := fun i =>
  BitVec.ofNat w (((a i).toNat + (b i).toNat + 1) / 2)

/-- Saturating subtract. -/
def vqsub (a b : Vec n w) : Vec n w := fun i => BitVec.ofNat w ((a i).toNat - (b i).toNat)

/-- Zero extension of every lane. -/
def vmovl (a : Vec n w) : Vec n (2 * w) := fun i => (a i).setWidth (2 * w)

/-- Unsigned widening multiply. -/
def vmullU (a b : Vec n w) : Vec n (2 * w) := fun i =>
  (a i).setWidth (2 * w) * (b i).setWidth (2 * w)

/-- Signed widening multiply. -/
def vmullS (a b : Vec n w) : Vec n (2 * w) := fun i =>
  (a i).signExtend (2 * w) * (b i).signExtend (2 * w)

/-- Signed widening multiply and accumulate. -/
def vmlalS (acc : Vec n (2 * w)) (a b : Vec n w) : Vec n (2 * w) := vaddq acc (vmullS a b)

/-- Narrow an unsigned lane, saturating. -/
def vqmovn (a : Vec n (2 * w)) : Vec n w := fun i =>
  if (a i).toNat < 2 ^ w then (a i).setWidth w else BitVec.allOnes w

/-- Narrow a signed lane to an unsigned one, saturating at both ends. -/
def vqmovun (a : Vec n (2 * w)) : Vec n w := fun i =>
  if (a i).toInt < 0 then 0
  else if (a i).toInt < 2 ^ w then (a i).setWidth w else BitVec.allOnes w

/-- Load `n` triples and separate their components. -/
def vld3 (mem : Int → BitVec w) (addr : Int) : Vec n w × Vec n w × Vec n w :=
  (fun i => mem (addr + 3 * (i : Nat)), fun i => mem (addr + 3 * (i : Nat) + 1),
   fun i => mem (addr + 3 * (i : Nat) + 2))

/-- The lanes of two registers, alternating. -/
def interleave (a b : Vec n w) : Vec (2 * n) w := fun i =>
  if i.val % 2 = 0 then a ⟨i / 2, by omega⟩ else b ⟨i / 2, by omega⟩

/-- Store two registers interleaved. -/
def vst2 (mem : Int → BitVec w) (addr : Int) (a b : Vec n w) : Int → BitVec w :=
  vst1 mem addr (interleave a b)

theorem pairLane_left (a b : Vec n w) {j : Nat} (h : j < n) : pairLane a b j = a ⟨j, h⟩ := by
  simp [pairLane, h]

theorem pairLane_right (a b : Vec n w) {j : Nat} (h : n ≤ j) (h' : j - n < n) :
    pairLane a b j = b ⟨j - n, h'⟩ := by
  have : ¬ j < n := by omega
  simp [pairLane, this, h']

@[simp] theorem vaddl_toNat (a b : Vec n w) (i : Fin n) (hw : 0 < w) :
    (vaddl a b i).toNat = (a i).toNat + (b i).toNat := by
  have ha := (a i).isLt
  have hb := (b i).isLt
  have h2 : 2 ^ w + 2 ^ w ≤ 2 ^ (2 * w) := by
    have : 2 ^ (w + 1) ≤ 2 ^ (2 * w) := Nat.pow_le_pow_right (by omega) (by omega)
    rw [Nat.pow_succ] at this
    omega
  simp only [vaddl, BitVec.toNat_add, BitVec.toNat_setWidth]
  rw [Nat.mod_eq_of_lt (a := (a i).toNat) (by omega),
    Nat.mod_eq_of_lt (a := (b i).toNat) (by omega), Nat.mod_eq_of_lt (by omega)]

@[simp] theorem vaddq_toNat (a b : Vec n w) (i : Fin n) :
    (vaddq a b i).toNat = ((a i).toNat + (b i).toNat) % 2 ^ w := by
  simp [vaddq]

@[simp] theorem vshrn_toNat (a : Vec n (2 * w)) (k : Nat) (i : Fin n) :
    (vshrn a k i).toNat = (a i).toNat / 2 ^ k % 2 ^ w := by
  simp [vshrn, Nat.shiftRight_eq_div_pow]

@[simp] theorem vrhadd_toNat (a b : Vec n w) (i : Fin n) :
    (vrhadd a b i).toNat = ((a i).toNat + (b i).toNat + 1) / 2 := by
  have ha := (a i).isLt
  have hb := (b i).isLt
  simp only [vrhadd, BitVec.toNat_ofNat]
  exact Nat.mod_eq_of_lt (by omega)

/-- The truncating average of two lanes. -/
theorem avg2_toNat (a b : Vec n w) (i : Fin n) (hw : 0 < w) :
    (vshrn (vaddl a b) 1 i).toNat = ((a i).toNat + (b i).toNat) / 2 := by
  have ha := (a i).isLt
  have hb := (b i).isLt
  rw [vshrn_toNat, vaddl_toNat a b i hw, Nat.pow_one]
  exact Nat.mod_eq_of_lt (by omega)

/-- The truncating average of four lanes. -/
theorem avg4_toNat (a b c d : Vec n w) (i : Fin n) (hw : 2 ≤ w) :
    (vshrn (vaddq (vaddl a b) (vaddl c d)) 2 i).toNat =
      ((a i).toNat + (b i).toNat + (c i).toNat + (d i).toNat) / 4 := by
  have ha := (a i).isLt
  have hb := (b i).isLt
  have hc := (c i).isLt
  have hd := (d i).isLt
  have h4 : 4 * 2 ^ w ≤ 2 ^ (2 * w) := by
    have : 2 ^ (w + 2) ≤ 2 ^ (2 * w) := Nat.pow_le_pow_right (by omega) (by omega)
    rw [Nat.pow_add] at this
    omega
  rw [vshrn_toNat, vaddq_toNat, vaddl_toNat a b i (by omega), vaddl_toNat c d i (by omega),
    Nat.mod_eq_of_lt (b := 2 ^ (2 * w)) (by omega)]
  rw [Nat.mod_eq_of_lt (by omega)]
  omega

/-! ## Signed lanes

Each lemma says when an instruction is exact on the signed values of its lanes. -/

@[simp] theorem vdup_apply (v : BitVec w) (i : Fin n) : (vdup v : Vec n w) i = v := rfl

theorem vmovl_toInt (a : Vec n w) (i : Fin n) (hw : 0 < w) : (vmovl a i).toInt = (a i).toNat := by
  have ha := (a i).isLt
  have h2 : 2 * 2 ^ w ≤ 2 ^ (2 * w) := by
    rw [← Nat.pow_succ']
    exact Nat.pow_le_pow_right (by omega) (by omega)
  have hv : (vmovl a i).toNat = (a i).toNat := by
    simp only [vmovl, BitVec.toNat_setWidth]
    exact Nat.mod_eq_of_lt (by omega)
  rw [BitVec.toInt_eq_toNat_of_lt (by omega), hv]

theorem vmullS_toInt (a b : Vec n w) (i : Fin n)
    (hlo : -2 ^ (2 * w) ≤ (a i).toInt * (b i).toInt * 2)
    (hhi : (a i).toInt * (b i).toInt * 2 < 2 ^ (2 * w)) :
    (vmullS a b i).toInt = (a i).toInt * (b i).toInt := by
  simp only [vmullS]
  rw [BitVec.toInt_mul, BitVec.toInt_signExtend_of_le (by omega),
    BitVec.toInt_signExtend_of_le (by omega)]
  exact Int.bmod_eq_of_le_mul_two (by push_cast; exact hlo) (by push_cast; exact hhi)

theorem vaddq_toInt (a b : Vec n w) (i : Fin n)
    (hlo : -2 ^ w ≤ ((a i).toInt + (b i).toInt) * 2)
    (hhi : ((a i).toInt + (b i).toInt) * 2 < 2 ^ w) :
    (vaddq a b i).toInt = (a i).toInt + (b i).toInt := by
  simp only [vaddq]
  rw [BitVec.toInt_add]
  exact Int.bmod_eq_of_le_mul_two (by push_cast; exact hlo) (by push_cast; exact hhi)

/-- The low half does not see which kind of shift filled the high bits. -/
theorem vshrn_eq_sshiftRight (a : Vec n (2 * w)) {k : Nat} (hk : k ≤ w) (i : Fin n) :
    vshrn a k i = ((a i).sshiftRight k).setWidth w := by
  apply BitVec.eq_of_getLsbD_eq
  intro j hj
  simp only [vshrn, BitVec.getLsbD_setWidth, BitVec.getLsbD_ushiftRight,
    BitVec.getLsbD_sshiftRight]
  have h1 : k + j < 2 * w := by omega
  have h2 : ¬ 2 * w ≤ j := by omega
  simp [h1, h2]

theorem vshrn_toInt (a : Vec n (2 * w)) {k : Nat} (hk : k ≤ w) (i : Fin n)
    (hlo : -2 ^ w ≤ ((a i).toInt >>> k) * 2) (hhi : ((a i).toInt >>> k) * 2 < 2 ^ w) :
    (vshrn a k i).toInt = (a i).toInt >>> k := by
  rw [vshrn_eq_sshiftRight a hk, ← BitVec.signExtend_eq_setWidth_of_le _ (by omega),
    BitVec.toInt_signExtend_eq_toInt_bmod_of_le _ (by omega), BitVec.toInt_sshiftRight]
  exact Int.bmod_eq_of_le_mul_two (by push_cast; exact hlo) (by push_cast; exact hhi)

theorem vqmovun_toNat (a : Vec n (2 * w)) (i : Fin n) (h0 : 0 ≤ (a i).toInt)
    (h1 : (a i).toInt < 2 ^ w) : ((vqmovun a i).toNat : Int) = (a i).toInt := by
  have hneg : ¬ (a i).toInt < 0 := by omega
  simp only [vqmovun, hneg, h1, if_true, if_false]
  have hnat : ((a i).toNat : Int) = (a i).toInt := by
    rw [BitVec.toInt_eq_toNat_cond] at h0 ⊢
    have := (a i).isLt
    split
    · rfl
    · rename_i hbig
      rw [if_neg hbig] at h0
      omega
  have hlt : (a i).toNat < 2 ^ w := by exact_mod_cast hnat ▸ h1
  rw [BitVec.toNat_setWidth, Nat.mod_eq_of_lt hlt]
  exact hnat

/-! ## Unsigned products -/

theorem vmullU_toNat (a b : Vec n w) (i : Fin n) :
    (vmullU a b i).toNat = (a i).toNat * (b i).toNat := by
  have ha := (a i).isLt
  have hb := (b i).isLt
  have hw : 2 ^ (2 * w) = 2 ^ w * 2 ^ w := by rw [Nat.two_mul, Nat.pow_add]
  have hself : 2 ^ w ≤ 2 ^ (2 * w) := Nat.pow_le_pow_right (by omega) (by omega)
  simp only [vmullU, BitVec.toNat_mul, BitVec.toNat_setWidth]
  rw [Nat.mod_eq_of_lt (a := (a i).toNat) (by omega),
    Nat.mod_eq_of_lt (a := (b i).toNat) (by omega), Nat.mod_eq_of_lt]
  rw [hw]
  exact Nat.mul_lt_mul'' ha hb

theorem vmovl_toNat (a : Vec n w) (i : Fin n) : (vmovl a i).toNat = (a i).toNat := by
  have ha := (a i).isLt
  have hself : 2 ^ w ≤ 2 ^ (2 * w) := Nat.pow_le_pow_right (by omega) (by omega)
  simp only [vmovl, BitVec.toNat_setWidth]
  exact Nat.mod_eq_of_lt (by omega)

theorem vqmovn_toNat (a : Vec n (2 * w)) (i : Fin n) :
    (vqmovn a i).toNat = min ((a i).toNat) (2 ^ w - 1) := by
  simp only [vqmovn]
  split
  · rw [BitVec.toNat_setWidth, Nat.mod_eq_of_lt ‹_›]
    omega
  · rw [BitVec.toNat_allOnes]
    omega

end MochaHal.Neon
